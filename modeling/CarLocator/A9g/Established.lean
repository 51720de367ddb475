import CarLocator.A9g.InitThread

/-!
# `CarLocator.A9g.Established`: what a successful initialisation has established

The parts of an attempt are taken one by one. `Stage cmds P m Q` says of such a part what
it does in any case, it issues the commands `cmds` only and stops with a fault exactly
when an answer does not fit, and that it leads from `P` to `Q` if it returns. The stages
are put together with the rules of `CarLocator.Library.Hoare`, and `Stage.keep` carries
what the stages before have found out.

`attempt_spec` is the result for one attempt, `initTruthful_iff` the one for the thread.
-/

set_option autoImplicit false

namespace CarLocator.A9g

open CarLocator.At
open CarLocator.Library

variable {α β : Type} {answer : InitCmd → Nat → List Bytes}

/-! ### Answers -/

/-- The commands whose answer is read into `parsed_data`. -/
def textCmds : List InitCmd := [.cregQuery, .cgact, .csq, .copsQuery]

/-- The commands whose answer is read into `qimux`. -/
def numberCmds : List InitCmd := [.cipmuxQuery, .gpsQuery]

/-- The answer to a command is parsed only if it is acknowledged. -/
theorem acked_of_reading {c : InitCmd} {lines : List Bytes} (h : c.reading lines ≠ .nothing) :
    c.Acked lines := by
  by_contra hn
  exact h (if_neg hn)

/-- Which commands have a format that assigns a text, and which a number. -/
theorem args_kind {c : InitCmd} {keyword : Bytes} {format : List Directive} {d : Directive}
    (hargs : c.args = some (keyword, format)) (hd : d ∈ format) :
    (d.assignsStr = true → c ∈ textCmds) ∧ (d.assignsInt = true → c ∈ numberCmds) := by
  constructor
  · intro h
    have hany : format.any Directive.assignsStr = true := List.any_eq_true.mpr ⟨d, hd, h⟩
    clear hd h
    cases c <;> cases hargs <;> revert hany <;> decide
  · intro h
    have hany : format.any Directive.assignsInt = true := List.any_eq_true.mpr ⟨d, hd, h⟩
    clear hd h
    cases c <;> cases hargs <;> revert hany <;> decide

/-- What the answer to a command can be read as. -/
theorem reading_cases (c : InitCmd) (lines : List Bytes) :
    c.reading lines = .undefined ∨ c.reading lines = .nothing ∨
      (∃ word, c.reading lines = .text word ∧ c ∈ textCmds) ∨
      ∃ v, c.reading lines = .number v ∧ c ∈ numberCmds := by
  by_cases hack : c.Acked lines
  case neg => exact Or.inr (Or.inl (if_neg hack))
  rw [InitCmd.reading, if_pos hack, InitCmd.parse]
  split
  case h_1 => exact Or.inr (Or.inl rfl)
  rename_i keyword format hargs
  have hkind : ∀ val vals, atRespParseLineArgsByKw (c.respond lines).1 keyword format
      = some (val :: vals) →
      (∃ n, val = .int n ∧ c ∈ numberCmds) ∨ ∃ word, val = .str word ∧ c ∈ textCmds := by
    intro val vals h
    unfold atRespParseLineArgsByKw at h
    split at h
    · cases h
    · exact (scan_kind h List.mem_cons_self).imp
        (fun ⟨n, hn, d, hd, hint⟩ => ⟨n, hn, (args_kind hargs hd).2 hint⟩)
        (fun ⟨word, hw, d, hd, hstr⟩ => ⟨word, hw, (args_kind hargs hd).1 hstr⟩)
  split
  · exact Or.inl rfl
  · rename_i word vals hparse
    split
    · rcases hkind _ _ hparse with ⟨n, hn, -⟩ | ⟨-, -, hc⟩
      · cases hn
      · exact Or.inr (Or.inr (Or.inl ⟨word, rfl, hc⟩))
    · exact Or.inl rfl
  · rename_i v vals hparse
    rcases hkind _ _ hparse with ⟨-, -, hc⟩ | ⟨word, hword, -⟩
    · exact Or.inr (Or.inr (Or.inr ⟨v, rfl, hc⟩))
    · cases hword
  · exact Or.inr (Or.inl rfl)

/-! ### Stages -/

/-- What a part of an attempt that issues only `cmds` leaves alone. -/
structure Frame (cmds : List InitCmd) (s s' : InitState) : Prop where
  issued : ∀ c, c ∉ cmds → s'.issued c = s.issued c
  parsedData : (∀ c ∈ cmds, c ∉ textCmds) → s'.parsedData = s.parsedData
  qimux : (∀ c ∈ cmds, c ∉ numberCmds) → s'.qimux = s.qimux

/-- Nothing has happened. -/
theorem Frame.refl (cmds : List InitCmd) (s : InitState) : Frame cmds s s :=
  ⟨fun _ _ => rfl, fun _ => rfl, fun _ => rfl⟩

/-- One part after another. -/
theorem Frame.trans {cmds : List InitCmd} {s s' s'' : InitState} (h : Frame cmds s s')
    (h' : Frame cmds s' s'') : Frame cmds s s'' where
  issued := fun c hc => (h'.issued c hc).trans (h.issued c hc)
  parsedData := fun hc => (h'.parsedData hc).trans (h.parsedData hc)
  qimux := fun hc => (h'.qimux hc).trans (h.qimux hc)

/-- A part with fewer commands leaves more alone. -/
theorem Frame.mono {cmds cmds' : List InitCmd} (hsub : cmds ⊆ cmds') {s s' : InitState}
    (h : Frame cmds s s') : Frame cmds' s s' where
  issued := fun c hc => h.issued c fun hm => hc (hsub hm)
  parsedData := fun hc => h.parsedData fun _ hm => hc _ (hsub hm)
  qimux := fun hc => h.qimux fun _ hm => hc _ (hsub hm)

/-- How a part of an attempt is left early: with a fault when an answer does not fit, else
with all answers fitting. -/
def Left (answer : InitCmd → Nat → List Bytes) (cmds : List InitCmd) (s₀ : InitState)
    (e : Stop) (s : InitState) : Prop :=
  if e = .fault then ¬ Fits answer s.issued else Fits answer s.issued ∧ Frame cmds s₀ s

/-- A part of an attempt that issues only `cmds` and leads from `P` to `Q`. -/
def Stage (answer : InitCmd → Nat → List Bytes) (cmds : List InitCmd)
    (P : InitState → Prop) (m : InitM α) (Q : α → InitState → Prop) : Prop :=
  ∀ s₀, Triple (fun s => (Fits answer s.issued ∧ Frame cmds s₀ s) ∧ P s) m
    (fun a s => (Fits answer s.issued ∧ Frame cmds s₀ s) ∧ Q a s) (Left answer cmds s₀)

variable {cmds cmds' : List InitCmd} {P P' F G : InitState → Prop} {Q Q' : α → InitState → Prop}
  {R : β → InitState → Prop}

/-- Leaving a part that more has gone before. -/
theorem Left.trans {s₀ s s' : InitState} {e : Stop} (hsub : cmds ⊆ cmds')
    (hframe : Frame cmds' s₀ s) (h : Left answer cmds s e s') : Left answer cmds' s₀ e s' := by
  unfold Left at h ⊢
  split
  · rwa [if_pos ‹_›] at h
  · rw [if_neg ‹_›] at h
    exact ⟨h.1, hframe.trans (h.2.mono hsub)⟩

/-- `return` in a stage. -/
theorem Stage.pure {a : α} (h : ∀ s, P s → Q a s) :
    Stage answer cmds P (Pure.pure a : InitM α) Q :=
  fun _ => Triple.pure fun s hs => ⟨hs.1, h s hs.2⟩

/-- Reading the variables in a stage. -/
theorem Stage.get : Stage answer cmds P (MonadState.get : InitM InitState)
    (fun a s => a = s ∧ P s) :=
  fun _ _ hs => ⟨hs.1, rfl, hs.2⟩

/-- `goto __exit` in a stage. -/
theorem Stage.exit {e : Stop} (he : e ≠ .fault) :
    Stage answer cmds P (throw e : InitM α) Q :=
  fun _ => Triple.throw fun _ hs => by
    rw [Left, if_neg he]
    exact hs.1

/-- One stage after the other. -/
theorem Stage.bind {m : InitM α} {f : α → InitM β} (hm : Stage answer cmds P m Q)
    (hf : ∀ a, Stage answer cmds (Q a) (f a) R) : Stage answer cmds P (m >>= f) R :=
  fun s₀ => Triple.bind (hm s₀) fun a => hf a s₀

/-- A branch in a stage. -/
theorem Stage.ite {c : Prop} [Decidable c] {m m' : InitM α}
    (hm : c → Stage answer cmds P m Q) (hm' : ¬ c → Stage answer cmds P m' Q) :
    Stage answer cmds P (if c then m else m') Q :=
  fun s₀ => Triple.ite (fun h => hm h s₀) fun h => hm' h s₀

/-- A loop: its body keeps `P` until it is left with `F`. -/
theorem Stage.loop {body : InitM Bool} (n : Nat)
    (h : Stage answer cmds P body fun left s => if left = true then F s else P s) :
    Stage answer cmds P (Library.retry n body)
      fun left s => if left = true then F s else P s := by
  intro s₀
  refine (Triple.retry (L := fun s => (Fits answer s.issued ∧ Frame cmds s₀ s) ∧ F s) n
    ((h s₀).conseq (fun _ => id) (fun left s hs => ?_) fun _ _ => id)).conseq
    (fun _ => id) (fun left s hs => ?_) fun _ _ => id
  · cases left <;> exact hs
  · cases left <;> exact hs

/-- A loop and the test behind it, which only `break` passes. -/
theorem Stage.retry {body : InitM Bool} (n : Nat) {e : Stop} (he : e ≠ .fault)
    (h : Stage answer cmds P body fun left s => if left = true then F s else P s) :
    Stage answer cmds P
      (do
        let left ← Library.retry n body
        if left then Pure.pure () else throw e)
      (fun _ s => F s) := by
  refine Stage.bind (Stage.loop n h) fun left => ?_
  cases left with
  | true => exact Stage.pure fun s hs => hs
  | false => exact Stage.exit he

/-- A stage may stand where more commands are allowed. -/
theorem Stage.mono {m : InitM α} (h : Stage answer cmds P m Q) (hsub : cmds ⊆ cmds') :
    Stage answer cmds' P m Q := by
  rintro s₀ s ⟨⟨hfits, hframe⟩, hP⟩
  refine (h s s ⟨⟨hfits, Frame.refl cmds s⟩, hP⟩).mono ?_ ?_
  · rintro a s' ⟨⟨hfits', hframe'⟩, hQ⟩
    exact ⟨⟨hfits', hframe.trans (hframe'.mono hsub)⟩, hQ⟩
  · exact fun e s' hleft => hleft.trans hsub hframe

/-- A weaker beginning, a stronger end. -/
theorem Stage.conseq {m : InitM α} (h : Stage answer cmds P m Q) (hP : ∀ s, P' s → P s)
    (hQ : ∀ a s, Q a s → Q' a s) : Stage answer cmds P' m Q' :=
  fun s₀ => (h s₀).conseq (fun s hs => ⟨hs.1, hP s hs.2⟩) (fun a s hs => ⟨hs.1, hQ a s hs.2⟩)
    fun _ _ => id

/-- **The frame rule.** A stage behind others that have issued `A`. What they have found out
is `F`, and `G` is what of it the stage does not touch. -/
theorem Stage.next {m : InitM α} {A L : List InitCmd} {s₀ : InitState}
    (h : Stage answer cmds P m Q) (hP : ∀ s, Frame A s₀ s → F s → P s)
    (hG : ∀ s s', Frame cmds s s' → F s → G s') (hsub : A ++ cmds ⊆ L) :
    Triple (fun s => (Fits answer s.issued ∧ Frame A s₀ s) ∧ F s) m
      (fun a s => (Fits answer s.issued ∧ Frame (A ++ cmds) s₀ s) ∧ G s ∧ Q a s)
      (Left answer L s₀) := by
  rintro s ⟨⟨hfits, hframe⟩, hF⟩
  have hA : A ⊆ A ++ cmds := List.subset_append_left A cmds
  have hcmds : cmds ⊆ A ++ cmds := List.subset_append_right A cmds
  refine (h s s ⟨⟨hfits, Frame.refl cmds s⟩, hP s hframe hF⟩).mono ?_ ?_
  · rintro a s' ⟨⟨hfits', hframe'⟩, hQ⟩
    exact ⟨⟨hfits', (hframe.mono hA).trans (hframe'.mono hcmds)⟩, hG s s' hframe' hF, hQ⟩
  · exact fun e s' hleft => hleft.trans (List.Subset.trans hcmds hsub)
      (hframe.mono (List.Subset.trans hA hsub))

/-! ### Commands -/

@[simp]
theorem issue_issued_self (s : InitState) (c : InitCmd) :
    (s.issue c).issued c = s.issued c + 1 := by
  simp [InitState.issue]

theorem issue_issued_ne (s : InitState) {c c' : InitCmd} (h : c' ≠ c) :
    (s.issue c).issued c' = s.issued c' := by
  simp [InitState.issue, h]

/-- Issuing one of its commands is within the frame of a stage. -/
theorem frame_issue {c : InitCmd} (hc : c ∈ cmds) (s : InitState) : Frame cmds s (s.issue c) :=
  ⟨fun _ hc' => issue_issued_ne s fun h => hc' (h ▸ hc), fun _ => rfl, fun _ => rfl⟩

/-- One more answer fits if the others do and it does. -/
theorem fits_issue (s : InitState) (c : InitCmd) :
    Fits answer (s.issue c).issued ↔
      Fits answer s.issued ∧ c.reading (answer c (s.issued c)) ≠ .undefined := by
  constructor
  · intro h
    refine ⟨fun c' n hn => h c' n ?_, h c (s.issued c) (by simp)⟩
    by_cases hc : c' = c
    · subst hc
      simp only [issue_issued_self]
      omega
    · rwa [issue_issued_ne s hc]
  · rintro ⟨h, hlast⟩ c' n hn
    by_cases hc : c' = c
    · subst hc
      rw [issue_issued_self] at hn
      rcases Nat.lt_succ_iff_lt_or_eq.mp hn with hlt | rfl
      · exact h c' n hlt
      · exact hlast
    · rw [issue_issued_ne s hc] at hn
      exact h c' n hn

/-- The run of `AT_SEND_CMD`. -/
theorem exec_atSendCmd (c : InitCmd) (s : InitState) :
    (atSendCmd answer c).exec s
      = if c.Acked (answer c (s.issued c))
        then (.ok (c.respond (answer c (s.issued c))).1, s.issue c)
        else (.error .exitError, s.issue c) := by
  have hexec : (execCmd answer c).exec s = (.ok (c.respond (answer c (s.issued c))), s.issue c) :=
    rfl
  rw [atSendCmd, exec_bind, hexec]
  show Prog.exec (if (c.respond (answer c (s.issued c))).2 = .ok then _ else _) _ = _
  by_cases hack : (c.respond (answer c (s.issued c))).2 = .ok
  · rw [if_pos hack, if_pos (show c.Acked _ from hack)]
    rfl
  · rw [if_neg hack, if_neg (show ¬ c.Acked _ from hack)]
    rfl

/-- The run of `AT_SEND_CMD` with the parse of its answer. -/
theorem exec_query (c : InitCmd) (s : InitState) :
    (query answer c).exec s
      = if c.Acked (answer c (s.issued c))
        then (assign (c.reading (answer c (s.issued c)))).exec (s.issue c)
        else (.error .exitError, s.issue c) := by
  rw [query, exec_bind, exec_atSendCmd]
  by_cases hack : c.Acked (answer c (s.issued c))
  · rw [if_pos hack, if_pos hack, InitCmd.reading, if_pos hack]
  · rw [if_neg hack, if_neg hack]

/-- An answer that is not parsed fits. -/
theorem reading_ne_undefined {c : InitCmd} (hargs : c.args = none) (lines : List Bytes) :
    c.reading lines ≠ .undefined := by
  rw [InitCmd.reading, InitCmd.parse, hargs]
  split <;> exact Reading.noConfusion

/-- A command whose answer is not looked at. -/
theorem stage_execCmd {c : InitCmd} (hc : c ∈ cmds) (hargs : c.args = none)
    {Q : AtResponse × AtRespStatus → InitState → Prop}
    (h : ∀ s, P s → Q (c.respond (answer c (s.issued c))) (s.issue c)) :
    Stage answer cmds P (execCmd answer c) Q := by
  rintro s₀ s ⟨⟨hfits, hframe⟩, hP⟩
  have hread := reading_ne_undefined hargs (answer c (s.issued c))
  exact ⟨⟨(fits_issue s c).mpr ⟨hfits, hread⟩, hframe.trans (frame_issue hc s)⟩, h s hP⟩

/-- A command that has to succeed. -/
theorem stage_atSendCmd {c : InitCmd} (hc : c ∈ cmds) (hargs : c.args = none)
    {Q : AtResponse → InitState → Prop}
    (h : ∀ s, P s → c.Acked (answer c (s.issued c)) →
      Q (c.respond (answer c (s.issued c))).1 (s.issue c)) :
    Stage answer cmds P (atSendCmd answer c) Q := by
  have hexec : Stage answer cmds P (execCmd answer c) fun r s => r.2 = .ok → Q r.1 s :=
    stage_execCmd hc hargs h
  refine Stage.bind hexec fun r => ?_
  exact Stage.ite (fun hok => Stage.pure fun s hs => hs hok)
    fun _ => Stage.exit (by decide)

/-- A command that has to succeed, with the parse of its answer. -/
theorem stage_query {c : InitCmd} (hc : c ∈ cmds) {Q : Unit → InitState → Prop}
    (hnothing : ∀ s, P s → c.Acked (answer c (s.issued c)) →
      c.reading (answer c (s.issued c)) = .nothing → Q () (s.issue c))
    (htext : ∀ s word, P s → c ∈ textCmds →
      c.reading (answer c (s.issued c)) = .text word →
        Q () { s.issue c with parsedData := word })
    (hnumber : ∀ s v, P s → c ∈ numberCmds →
      c.reading (answer c (s.issued c)) = .number v → Q () { s.issue c with qimux := v }) :
    Stage answer cmds P (query answer c) Q := by
  rintro s₀ s ⟨⟨hfits, hframe⟩, hP⟩
  rw [exec_query]
  have hfits' : _ → Fits answer (s.issue c).issued := (fits_issue s c).mpr
  have hframe' := hframe.trans (frame_issue hc s)
  by_cases hack : c.Acked (answer c (s.issued c))
  case neg =>
    rw [if_neg hack]
    show Left answer cmds s₀ .exitError (s.issue c)
    rw [Left, if_neg (by decide)]
    refine ⟨hfits' ⟨hfits, ?_⟩, hframe'⟩
    rw [InitCmd.reading, if_neg hack]
    exact Reading.noConfusion
  rw [if_pos hack]
  rcases reading_cases c (answer c (s.issued c)) with hr | hr | ⟨word, hr, hmem⟩ | ⟨v, hr, hmem⟩
  · rw [hr]
    show Left answer cmds s₀ .fault (s.issue c)
    rw [Left, if_pos rfl]
    exact fun hf => ((fits_issue s c).mp hf).2 hr
  · rw [hr]
    exact ⟨⟨hfits' ⟨hfits, by rw [hr]; exact Reading.noConfusion⟩, hframe'⟩,
      hnothing s hP hack hr⟩
  · rw [hr]
    refine ⟨⟨hfits' ⟨hfits, by rw [hr]; exact Reading.noConfusion⟩, hframe'.issued,
      fun hno => absurd hmem (hno c hc), hframe'.qimux⟩, htext s word hP hmem hr⟩
  · rw [hr]
    refine ⟨⟨hfits' ⟨hfits, by rw [hr]; exact Reading.noConfusion⟩, hframe'.issued,
      hframe'.parsedData, fun hno => absurd hmem (hno c hc)⟩, hnumber s v hP hmem hr⟩

/-! ### The checks -/

/-- The SIM card check is passed with a `+CCID:` line. -/
theorem stage_ccidCheck :
    Stage answer [.ccid] (fun _ => True) (ccidCheck answer)
      fun _ s => CcidSeen answer s.issued := by
  refine Stage.retry _ (by decide) ?_
  have hsend : Stage answer [.ccid] (fun _ => True) (atSendCmd answer .ccid) fun resp s =>
      (atRespGetLineByKw resp (ascii "+CCID:")).isSome = true → CcidSeen answer s.issued := by
    refine stage_atSendCmd (by decide) rfl fun s _ hack hseen => ?_
    exact ⟨s.issued .ccid, by simp, hack, hseen⟩
  refine Stage.bind hsend fun resp => Stage.pure fun s hs => ?_
  split
  · exact hs ‹_›
  · trivial

/-- The registration check is passed with `1,1` or `1,5` from a `+CREG:` line, if
`parsed_data` is empty before it. -/
theorem stage_cregCheck :
    Stage answer [.cregQuery] (fun s => s.parsedData = []) (cregCheck answer)
      fun _ s => CregRead answer s.issued := by
  -- Whatever `parsed_data` holds has been read from one of the answers.
  let Read : InitState → Prop := fun s => s.parsedData = [] ∨ ∃ n < s.issued .cregQuery,
    InitCmd.cregQuery.reading (answer .cregQuery n) = .text s.parsedData
  have hkeep : ∀ s, Read s → Read (s.issue .cregQuery) := by
    intro s hs
    refine hs.imp id fun ⟨n, hn, hr⟩ => ⟨n, ?_, hr⟩
    rw [issue_issued_self]
    omega
  have hquery : Stage answer [.cregQuery] Read (query answer .cregQuery) fun _ => Read := by
    refine stage_query (by decide) (fun s hs _ _ => hkeep s hs) (fun s word _ _ hr => ?_)
      (fun s v _ hmem _ => absurd hmem (by decide))
    exact Or.inr ⟨s.issued .cregQuery, by simp, hr⟩
  refine Stage.conseq (P := Read) (Stage.retry _ (by decide) ?_) (fun s hs => Or.inl hs)
    fun _ _ => id
  refine Stage.bind hquery fun _ => Stage.bind Stage.get fun s₁ => Stage.pure fun s hs => ?_
  obtain ⟨rfl, hread⟩ := hs
  split
  · rename_i hdata
    rw [decide_eq_true_eq] at hdata
    rcases hread with hnil | ⟨n, hn, hr⟩
    · rw [hnil] at hdata
      exact absurd hdata (by decide)
    · refine ⟨n, hn, hdata.imp (fun h => ?_) fun h => ?_⟩ <;> rw [hr, h]
  · exact hread

/-- The loop over `AT+CGATT` ends well or not. -/
theorem stage_cgatt {c : InitCmd} (hargs : c.args = none) :
    Stage answer [c] (fun _ => True) (cgatt answer c) fun _ _ => True := by
  refine Stage.conseq (Stage.loop (F := fun _ => True) _ ?_) (fun _ => id) fun _ _ _ => trivial
  refine Stage.bind (Q := fun _ _ => True) (stage_execCmd (by simp) hargs fun _ _ => trivial)
    fun r => Stage.pure fun s _ => ?_
  split <;> trivial

/-- The GPRS check is passed with `OK` in `parsed_data`, and `AT+CGACT` is acknowledged. -/
theorem stage_cgactCheck :
    Stage answer [.cgattOn, .cgdcont, .cgact] (fun _ => True) (cgactCheck answer)
      fun _ s => CgactOk answer s.issued ∧ s.parsedData = ascii "OK" := by
  refine Stage.retry _ (by decide) ?_
  have hok : ∀ s : InitState, InitCmd.cgact.Acked (answer .cgact (s.issued .cgact)) →
      CgactOk answer (s.issue .cgact).issued := fun s hack =>
    ⟨s.issued .cgact, by simp, hack, ok_of_collect rfl hack⟩
  have hquery : Stage answer [.cgattOn, .cgdcont, .cgact] (fun _ => True)
      (query answer .cgact) fun _ s => CgactOk answer s.issued := by
    refine stage_query (by decide) (fun s _ hack _ => hok s hack) (fun s word _ _ hr => ?_)
      (fun s v _ hmem _ => absurd hmem (by decide))
    exact hok s (acked_of_reading (by rw [hr]; exact Reading.noConfusion))
  refine Stage.bind (Q := fun _ _ => True) ?_ fun _ =>
    Stage.bind (Q := fun _ _ => True) (stage_atSendCmd (by decide) rfl fun _ _ _ => trivial)
      fun _ => Stage.bind hquery fun _ => Stage.bind Stage.get fun s₁ =>
        Stage.pure fun s hs => ?_
  · exact (stage_cgatt rfl).mono (by decide)
  · obtain ⟨rfl, hcgact⟩ := hs
    split
    · rename_i hdata
      exact ⟨hcgact, of_decide_eq_true hdata⟩
    · trivial

/-- The signal check is passed with a text other than `99,99` exactly when the first answer
has a text: without one, it is passed with the text that was there before. -/
theorem stage_csqCheck :
    Stage answer [.csq] (fun s => s.issued .csq = 0 ∧ s.parsedData = ascii "OK")
      (csqCheck answer)
      fun _ s => CsqRead answer s.issued ↔
        ∃ word, InitCmd.csq.reading (answer .csq 0) = .text word := by
  -- In later rounds the first answer had a text, and all texts so far were `99,99`.
  let Weak : InitState → Prop := fun s =>
    (s.issued .csq = 0 ∧ s.parsedData = ascii "OK") ∨
      (0 < s.issued .csq ∧ s.parsedData = ascii "99,99" ∧
        ∃ word, InitCmd.csq.reading (answer .csq 0) = .text word)
  let Done : InitState → Prop := fun s => CsqRead answer s.issued ↔
    ∃ word, InitCmd.csq.reading (answer .csq 0) = .text word
  have hfirst : ∀ (s : InitState) word, Weak s →
      InitCmd.csq.reading (answer .csq (s.issued .csq)) = .text word →
      ∃ word, InitCmd.csq.reading (answer .csq 0) = .text word := by
    rintro s word (⟨hzero, -⟩ | ⟨-, -, hfirst⟩) hr
    · rw [hzero] at hr
      exact ⟨word, hr⟩
    · exact hfirst
  have hquery : Stage answer [.csq] Weak (query answer .csq) fun _ s =>
      if s.parsedData = ascii "99,99" then Weak s else Done s := by
    refine stage_query (by decide) (fun s hs _ hr => ?_) (fun s word hs _ hr => ?_)
      (fun s v _ hmem _ => absurd hmem (by decide))
    · rcases hs with ⟨hzero, hdata⟩ | ⟨hpos, hdata, hfirst⟩
      · have hdata' : (s.issue .csq).parsedData = ascii "OK" := hdata
        rw [if_neg (by rw [hdata']; decide)]
        rw [hzero] at hr
        refine iff_of_false ?_ ?_
        · rintro ⟨n, hn, word, -, hword⟩
          rw [issue_issued_self, hzero] at hn
          rw [Nat.lt_one_iff.mp hn, hr] at hword
          cases hword
        · rintro ⟨word, hword⟩
          rw [hr] at hword
          cases hword
      · have hdata' : (s.issue .csq).parsedData = ascii "99,99" := hdata
        rw [if_pos hdata']
        exact Or.inr ⟨by simp, hdata', hfirst⟩
    · split
      · rename_i hweak
        exact Or.inr ⟨by simp, hweak, hfirst s word hs hr⟩
      · rename_i hstrong
        exact iff_of_true ⟨s.issued .csq, by simp, word, hstrong, hr⟩ (hfirst s word hs hr)
  refine Stage.conseq (P := Weak) (Stage.retry (F := Done) _ (by decide) ?_)
    (fun s hs => Or.inl hs) fun _ _ => id
  refine Stage.bind hquery fun _ => Stage.bind Stage.get fun s₁ => Stage.pure fun s hs => ?_
  obtain ⟨rfl, hcase⟩ := hs
  by_cases hdata : s₁.parsedData = ascii "99,99"
  · rw [if_neg (by simp [hdata])]
    rwa [if_pos hdata] at hcase
  · rw [if_pos (by simp [hdata])]
    rwa [if_neg hdata] at hcase

/-- The run of a query for a number and of the command that depends on it. -/
theorem exec_switchOn {c c' : InitCmd} (hc : c ∈ numberCmds) (hne : c' ≠ c) (s : InitState) :
    (¬ c.Acked (answer c (s.issued c)) ∧
        (switchOn answer c c').exec s = (.error .exitError, s.issue c)) ∨
      (c.reading (answer c (s.issued c)) = .undefined ∧
        (switchOn answer c c').exec s = (.error .fault, s.issue c)) ∨
      (c.Acked (answer c (s.issued c)) ∧ c.reading (answer c (s.issued c)) ≠ .undefined ∧
        (switchOn answer c c').exec s =
          let s' := { s.issue c with
            qimux := (c.reading (answer c (s.issued c))).numberOr s.qimux }
          if s'.qimux ≠ 0 then (.ok (), s')
          else if c'.Acked (answer c' (s.issued c')) then (.ok (), s'.issue c')
          else (.error .exitError, s'.issue c')) := by
  by_cases hack : c.Acked (answer c (s.issued c))
  case neg =>
    refine Or.inl ⟨hack, ?_⟩
    rw [switchOn, exec_bind, exec_query, if_neg hack]
  -- The rest of the program, from the state in which the answer has been parsed.
  have hrest : ∀ s' : InitState, s'.issued c' = s.issued c' →
      Prog.exec (do
        let s ← MonadState.get
        if s.qimux = 0 then
          let _ ← atSendCmd answer c'
          pure ()
        else pure () : InitM Unit) s'
      = if s'.qimux ≠ 0 then (.ok (), s')
        else if c'.Acked (answer c' (s.issued c')) then (.ok (), s'.issue c')
        else (.error .exitError, s'.issue c') := by
    intro s' hissued
    show Prog.exec (if s'.qimux = 0 then _ else _ : InitM Unit) s' = _
    by_cases hzero : s'.qimux = 0
    · rw [if_pos hzero, if_neg (not_not.mpr hzero), exec_bind, exec_atSendCmd, hissued]
      by_cases hack' : c'.Acked (answer c' (s.issued c'))
      · rw [if_pos hack', if_pos hack']
        rfl
      · rw [if_neg hack', if_neg hack']
    · rw [if_neg hzero, if_pos hzero]
      rfl
  have hissued : (s.issue c).issued c' = s.issued c' := issue_issued_ne s hne
  have hquery := @exec_query answer c s
  rw [if_pos hack] at hquery
  rcases reading_cases c (answer c (s.issued c)) with hr | hr | ⟨word, hr, hmem⟩ | ⟨v, hr, -⟩
  · refine Or.inr (Or.inl ⟨hr, ?_⟩)
    rw [switchOn, exec_bind, hquery, hr]
    rfl
  · refine Or.inr (Or.inr ⟨hack, by rw [hr]; exact Reading.noConfusion, ?_⟩)
    rw [switchOn, exec_bind, hquery, hr]
    exact hrest (s.issue c) hissued
  · exfalso
    revert hmem
    rcases List.mem_pair.mp hc with rfl | rfl <;> decide
  · refine Or.inr (Or.inr ⟨hack, by rw [hr]; exact Reading.noConfusion, ?_⟩)
    rw [switchOn, exec_bind, hquery, hr]
    exact hrest { s.issue c with qimux := v } hissued

/-- The number behind a parse is the one read, or the one held before. -/
theorem numberOr_cases (r : Reading) (held : Int) :
    (∃ v, r = .number v ∧ r.numberOr held = v) ∨
      ((∀ v, r ≠ .number v) ∧ r.numberOr held = held) := by
  cases r with
  | number v => exact Or.inl ⟨v, rfl, rfl⟩
  | _ => exact Or.inr ⟨fun _ => Reading.noConfusion, rfl⟩

/-- `SwitchedOn` after one query. -/
theorem switchedOn_iff {c c' : InitCmd} {issued : InitCmd → Nat} (hone : issued c = 1) :
    SwitchedOn answer issued c c' ↔
      (∃ v, v ≠ 0 ∧ c.reading (answer c 0) = .number v) ∨
        ∃ n < issued c', c'.Acked (answer c' n) := by
  refine or_congr_left ⟨?_, fun h => ⟨0, by omega, h⟩⟩
  rintro ⟨n, hn, h⟩
  rwa [hone, Nat.lt_one_iff.mp hn] at *

/-- The first query of a function, and the command that switches it on if the number held is
0. If both succeed, the function is on exactly when the number was read or was 0 before. If
one of them fails, it is not. -/
theorem switchOn_ends {c c' : InitCmd} (hc : c ∈ numberCmds) (hargs : c'.args = none)
    (hne : c' ≠ c) {s : InitState} (hfits : Fits answer s.issued) (hzero : s.issued c = 0)
    (hzero' : s.issued c' = 0) :
    Ends ((switchOn answer c c').exec s)
      (fun _ s' => (Fits answer s'.issued ∧ Frame [c, c'] s s') ∧
        Acknowledged answer s'.issued c c' ∧
        s'.qimux = (c.reading (answer c 0)).numberOr s.qimux ∧
        (SwitchedOn answer s'.issued c c' ↔
          s.qimux = 0 ∨ ∃ v, c.reading (answer c 0) = .number v))
      (fun e s' => Left answer [c, c'] s e s' ∧
        (e ≠ .fault → ¬ Acknowledged answer s'.issued c c' ∧
          ¬ SwitchedOn answer s'.issued c c')) := by
  have hone : (s.issue c).issued c = 1 := by rw [issue_issued_self, hzero]
  have hnone : (s.issue c).issued c' = 0 := by rw [issue_issued_ne s hne, hzero']
  have hframe : Frame [c, c'] s (s.issue c) := frame_issue (by simp) s
  have hcases := @exec_switchOn answer c c' hc hne s
  rw [hzero] at hcases
  rcases hcases with ⟨hack, hexec⟩ | ⟨hr, hexec⟩ | ⟨hack, hr, hexec⟩ <;> rw [hexec]
  · -- The query fails.
    have hread : c.reading (answer c 0) = .nothing := if_neg hack
    refine ⟨?_, fun _ => ⟨fun h => hack h.2.1, ?_⟩⟩
    · rw [Left, if_neg (by decide)]
      refine ⟨(fits_issue s c).mpr ⟨hfits, ?_⟩, hframe⟩
      rw [hzero, hread]
      exact Reading.noConfusion
    · rw [switchedOn_iff hone, hnone, hread]
      rintro (⟨v, -, hv⟩ | ⟨n, hn, -⟩)
      · cases hv
      · omega
  · -- Its answer does not fit.
    refine ⟨?_, fun h => absurd rfl h⟩
    rw [Left, if_pos rfl]
    refine fun hf => ((fits_issue s c).mp hf).2 ?_
    rw [hzero]
    exact hr
  · have hfits₁ : Fits answer (s.issue c).issued :=
      (fits_issue s c).mpr ⟨hfits, by rw [hzero]; exact hr⟩
    have hnumber := numberOr_cases (c.reading (answer c 0)) s.qimux
    generalize hq : (c.reading (answer c 0)).numberOr s.qimux = q at *
    let s₁ : InitState := { s.issue c with qimux := q }
    have hframe₁ : Frame [c, c'] s s₁ :=
      ⟨hframe.issued, hframe.parsedData, fun hno => absurd hc (hno c (by simp))⟩
    have hfits₂ : Fits answer (s₁.issue c').issued :=
      (fits_issue s₁ c').mpr ⟨hfits₁, reading_ne_undefined hargs _⟩
    have hframe₂ : Frame [c, c'] s (s₁.issue c') := hframe₁.trans (frame_issue (by simp) s₁)
    have hone₂ : (s₁.issue c').issued c = 1 := by rw [issue_issued_ne s₁ hne.symm]; exact hone
    have hone₂' : (s₁.issue c').issued c' = 1 := by
      rw [issue_issued_self]
      exact congrArg (· + 1) hnone
    by_cases hq0 : q ≠ 0
    · rw [if_pos hq0]
      refine ⟨⟨hfits₁, hframe₁⟩, ⟨?_, hack, fun h => ?_⟩, rfl, ?_⟩
      · exact hone ▸ Nat.one_pos
      · exact absurd (hnone ▸ h) (lt_irrefl 0)
      · rw [switchedOn_iff hone]
        constructor
        · rintro (⟨v, -, hv⟩ | ⟨n, hn, -⟩)
          · exact Or.inr ⟨v, hv⟩
          · exact absurd (hnone ▸ hn) (Nat.not_lt_zero n)
        · intro h
          rcases hnumber with ⟨v, hv, rfl⟩ | ⟨hno, hheld⟩
          · exact Or.inl ⟨_, hq0, hv⟩
          · rcases h with hz | ⟨v, hv⟩
            · exact absurd (hheld.trans hz) hq0
            · exact absurd hv (hno v)
    · rw [if_neg hq0]
      rw [not_not] at hq0
      rw [hzero']
      split
      · rename_i hack'
        refine ⟨⟨hfits₂, hframe₂⟩, ⟨?_, hack, fun _ => hack'⟩, rfl, ?_⟩
        · exact hone₂ ▸ Nat.one_pos
        · rw [switchedOn_iff hone₂]
          refine iff_of_true (Or.inr ⟨0, hone₂' ▸ Nat.one_pos, hack'⟩) ?_
          rcases hnumber with ⟨v, hv, -⟩ | ⟨-, hheld⟩
          · exact Or.inr ⟨v, hv⟩
          · exact Or.inl (hheld.symm.trans hq0)
      · rename_i hack'
        refine ⟨?_, fun _ => ⟨fun h => hack' (h.2.2 (hone₂' ▸ Nat.one_pos)), ?_⟩⟩
        · rw [Left, if_neg (by decide)]
          exact ⟨hfits₂, hframe₂⟩
        · rw [switchedOn_iff hone₂]
          rintro (⟨v, hv, hr'⟩ | ⟨n, hn, hn'⟩)
          · rcases hnumber with ⟨w, hw, rfl⟩ | ⟨hno, -⟩
            · rw [hw] at hr'
              cases hr'
              exact hv hq0
            · exact hno v hr'
          · rw [hone₂', Nat.lt_one_iff] at hn
            exact hack' (hn ▸ hn')

/-- The same as a stage. -/
theorem stage_switchOn {c c' : InitCmd} (hc : c ∈ numberCmds) (hargs : c'.args = none)
    (hne : c' ≠ c) (held : Int) :
    Stage answer [c, c'] (fun s => s.issued c = 0 ∧ s.issued c' = 0 ∧ s.qimux = held)
      (switchOn answer c c')
      fun _ s => s.qimux = (c.reading (answer c 0)).numberOr held ∧
        (SwitchedOn answer s.issued c c' ↔
          held = 0 ∨ ∃ v, c.reading (answer c 0) = .number v) := by
  rintro s₀ s ⟨⟨hfits, hframe⟩, hzero, hzero', rfl⟩
  refine (switchOn_ends hc hargs hne hfits hzero hzero').mono ?_ ?_
  · rintro a s' ⟨⟨hfits', hframe'⟩, -, hfound⟩
    exact ⟨⟨hfits', hframe.trans hframe'⟩, hfound⟩
  · exact fun e s' hleft => hleft.1.trans (List.Subset.refl _) hframe

/-- The operator check only issues its commands. -/
theorem stage_copsCheck :
    Stage answer [.copsQuery, .csttMobile, .csttUnicom, .csttTelecom] (fun _ => True)
      (copsCheck answer) fun _ _ => True := by
  have hcstt : ∀ {c : InitCmd}, c ∈ [.copsQuery, .csttMobile, .csttUnicom, .csttTelecom] →
      c.args = none → Stage answer [.copsQuery, .csttMobile, .csttUnicom, .csttTelecom]
        (fun _ => True) (do let _ ← atSendCmd answer c; pure ()) fun _ _ => True :=
    fun hc hargs => Stage.bind (Q := fun _ _ => True)
      (stage_atSendCmd hc hargs fun _ _ _ => trivial) fun _ => Stage.pure fun _ _ => trivial
  refine Stage.bind (Q := fun _ _ => True)
    (stage_query (by decide) (fun _ _ _ _ => trivial) (fun _ _ _ _ _ => trivial)
      fun _ _ _ _ _ => trivial) fun _ =>
    Stage.bind (Q := fun _ _ => True) (Stage.get.conseq (fun _ => id) fun _ _ _ => trivial)
      fun s => ?_
  refine Stage.ite (fun _ => hcstt (by decide) rfl) fun _ => ?_
  refine Stage.ite (fun _ => hcstt (by decide) rfl) fun _ => ?_
  exact Stage.ite (fun _ => hcstt (by decide) rfl) fun _ => Stage.pure fun _ _ => trivial

/-- The address check is passed without an `ERROR` line. -/
theorem stage_cifsrCheck :
    Stage answer [.cifsr] (fun s => s.issued .cifsr = 0) (cifsrCheck answer)
      fun _ s => CifsrClean answer s.issued := by
  have hsend : Stage answer [.cifsr] (fun s => s.issued .cifsr = 0) (atSendCmd answer .cifsr)
      fun resp s => atRespGetLineByKw resp (ascii "ERROR") = none →
        CifsrClean answer s.issued := by
    refine stage_atSendCmd (by decide) rfl fun s hzero hack hnone => ?_
    rw [hzero] at hack hnone
    refine ⟨by simp, fun n hn => ?_⟩
    rw [issue_issued_self, hzero, Nat.lt_one_iff] at hn
    subst hn
    exact ⟨hack, hnone⟩
  refine Stage.bind hsend fun resp => Stage.ite (fun _ => Stage.exit (by decide)) fun h =>
    Stage.pure fun s hs => hs (not_not.mp h)

/-! ### The attempt -/

/-- The commands of an attempt before the GPS. -/
def networkCmds : List InitCmd :=
  [.ate0, .ati, .ccid, .rst, .cregQuery, .cgattOff, .cgattOn, .cgdcont, .cgact, .csq,
    .cipmuxQuery, .cipmuxOn, .copsQuery, .csttMobile, .csttUnicom, .csttTelecom, .cifsr]

/-- What an attempt has found out when it comes to the GPS. -/
structure NetworkFound (answer : InitCmd → Nat → List Bytes) (held : Int) (s : InitState) :
    Prop where
  ccid : CcidSeen answer s.issued
  creg : CregRead answer s.issued
  cgact : CgactOk answer s.issued
  csq : CsqRead answer s.issued ↔ ∃ word, InitCmd.csq.reading (answer .csq 0) = .text word
  qimux : s.qimux = (InitCmd.cipmuxQuery.reading (answer .cipmuxQuery 0)).numberOr held
  cipmux : SwitchedOn answer s.issued .cipmuxQuery .cipmuxOn ↔
    held = 0 ∨ ∃ v, InitCmd.cipmuxQuery.reading (answer .cipmuxQuery 0) = .number v
  cifsr : CifsrClean answer s.issued

/-- What the SIM card check has found out is kept by the stages behind it. -/
theorem CcidSeen.keep {s s' : InitState} (hf : Frame cmds s s') (hc : .ccid ∉ cmds)
    (h : CcidSeen answer s.issued) : CcidSeen answer s'.issued := by
  rwa [CcidSeen, hf.issued .ccid hc]

/-- So is what the registration check has found out. -/
theorem CregRead.keep {s s' : InitState} (hf : Frame cmds s s') (hc : .cregQuery ∉ cmds)
    (h : CregRead answer s.issued) : CregRead answer s'.issued := by
  rwa [CregRead, hf.issued .cregQuery hc]

/-- So is what the GPRS check has found out. -/
theorem CgactOk.keep {s s' : InitState} (hf : Frame cmds s s') (hc : .cgact ∉ cmds)
    (h : CgactOk answer s.issued) : CgactOk answer s'.issued := by
  rwa [CgactOk, hf.issued .cgact hc]

/-- So is what the signal check has found out, or not. -/
theorem csqRead_keep {s s' : InitState} (hf : Frame cmds s s') (hc : .csq ∉ cmds) :
    CsqRead answer s'.issued ↔ CsqRead answer s.issued := by
  rw [CsqRead, CsqRead, hf.issued .csq hc]

/-- So is whether a function was switched on. -/
theorem switchedOn_keep {c c' : InitCmd} {s s' : InitState} (hf : Frame cmds s s')
    (hc : c ∉ cmds) (hc' : c' ∉ cmds) :
    SwitchedOn answer s'.issued c c' ↔ SwitchedOn answer s.issued c c' := by
  rw [SwitchedOn, SwitchedOn, hf.issued c hc, hf.issued c' hc']

/-- So is what the address check has found out. -/
theorem CifsrClean.keep {s s' : InitState} (hf : Frame cmds s s') (hc : .cifsr ∉ cmds)
    (h : CifsrClean answer s.issued) : CifsrClean answer s'.issued := by
  rwa [CifsrClean, hf.issued .cifsr hc]

/-- The attempt up to the GPS. -/
theorem attemptNetwork_spec (connected : Bool) (held : Int) :
    Triple (fun s => (Fits answer s.issued ∧ Frame [] (initState held) s) ∧ True)
      (attemptNetwork answer connected)
      (fun _ s => (Fits answer s.issued ∧ Frame networkCmds (initState held) s) ∧
        NetworkFound answer held s)
      (Left answer networkCmds (initState held)) := by
  have hsend : ∀ {c : InitCmd}, c.args = none →
      Stage answer [c] (fun _ => True) (atSendCmd answer c) fun _ _ => True :=
    fun hargs => stage_atSendCmd (by simp) hargs fun _ _ _ => trivial
  have hconnect : Stage answer [] (fun _ => True) (waitConnect connected) fun _ _ => True :=
    Stage.ite (fun _ => Stage.pure fun _ _ => trivial) fun _ => Stage.exit (by decide)
  let Registered : InitState → Prop := fun s =>
    CcidSeen answer s.issued ∧ CregRead answer s.issued
  let Attached : InitState → Prop := fun s => Registered s ∧ CgactOk answer s.issued
  let Signal : InitState → Prop := fun s => Attached s ∧
    (CsqRead answer s.issued ↔ ∃ word, InitCmd.csq.reading (answer .csq 0) = .text word)
  let Multiple : InitState → Prop := fun s => Signal s ∧
    s.qimux = (InitCmd.cipmuxQuery.reading (answer .cipmuxQuery 0)).numberOr held ∧
      (SwitchedOn answer s.issued .cipmuxQuery .cipmuxOn ↔
        held = 0 ∨ ∃ v, InitCmd.cipmuxQuery.reading (answer .cipmuxQuery 0) = .number v)
  unfold attemptNetwork
  refine Triple.bind (Stage.next (G := fun _ => True) hconnect (fun _ _ _ => trivial)
    (fun _ _ _ _ => trivial) (by decide)) fun _ => ?_
  refine Triple.bind (Stage.next (G := fun _ => True) (hsend rfl) (fun _ _ _ => trivial)
    (fun _ _ _ _ => trivial) (by decide)) fun _ => ?_
  refine Triple.bind (Stage.next (G := fun _ => True) (hsend rfl) (fun _ _ _ => trivial)
    (fun _ _ _ _ => trivial) (by decide)) fun _ => ?_
  refine Triple.bind (Stage.next (G := fun _ => True) stage_ccidCheck (fun _ _ _ => trivial)
    (fun _ _ _ _ => trivial) (by decide)) fun _ => ?_
  refine Triple.bind (Stage.next (G := fun s => CcidSeen answer s.issued) (hsend rfl)
    (fun _ _ _ => trivial) (fun _ _ hf h => h.2.keep hf (by decide)) (by decide)) fun _ => ?_
  -- Nothing has been read into `parsed_data` so far.
  refine Triple.bind (Stage.next (G := fun s => CcidSeen answer s.issued) stage_cregCheck
    (fun s hA _ => hA.parsedData (by decide)) (fun _ _ hf h => h.1.keep hf (by decide))
    (by decide)) fun _ => ?_
  refine Triple.bind (Stage.next (G := Registered) (stage_cgatt rfl) (fun _ _ _ => trivial)
    (fun _ _ hf h => ⟨h.1.keep hf (by decide), h.2.keep hf (by decide)⟩) (by decide))
    fun _ => ?_
  refine Triple.bind (Stage.next (G := Registered) stage_cgactCheck (fun _ _ _ => trivial)
    (fun _ _ hf h => ⟨h.1.1.keep hf (by decide), h.1.2.keep hf (by decide)⟩) (by decide))
    fun _ => ?_
  -- Now `parsed_data` holds `OK`, which the signal check does not reset.
  refine Triple.bind (Stage.next (G := Attached) stage_csqCheck
    (fun s hA h => ⟨hA.issued .csq (by decide), h.2.2⟩)
    (fun _ _ hf h => ⟨⟨h.1.1.keep hf (by decide), h.1.2.keep hf (by decide)⟩,
      h.2.1.keep hf (by decide)⟩) (by decide)) fun _ => ?_
  refine Triple.bind (Stage.next (G := Signal)
    (stage_switchOn (by decide) rfl (by decide) held)
    (fun s hA _ => ⟨hA.issued .cipmuxQuery (by decide), hA.issued .cipmuxOn (by decide),
      hA.qimux (by decide)⟩)
    (fun _ _ hf h => ⟨⟨⟨h.1.1.1.keep hf (by decide), h.1.1.2.keep hf (by decide)⟩,
      h.1.2.keep hf (by decide)⟩, (csqRead_keep hf (by decide)).trans h.2⟩) (by decide))
    fun _ => ?_
  refine Triple.bind (Stage.next (G := Multiple) stage_copsCheck (fun _ _ _ => trivial)
    (fun _ _ hf h => ⟨⟨⟨⟨h.1.1.1.1.keep hf (by decide), h.1.1.1.2.keep hf (by decide)⟩,
      h.1.1.2.keep hf (by decide)⟩, (csqRead_keep hf (by decide)).trans h.1.2⟩,
      (hf.qimux (by decide)).trans h.2.1,
      (switchedOn_keep hf (by decide) (by decide)).trans h.2.2⟩) (by decide)) fun _ => ?_
  refine (Stage.next (G := Multiple) stage_cifsrCheck
    (fun s hA _ => hA.issued .cifsr (by decide))
    (fun _ _ hf h => ⟨⟨⟨⟨h.1.1.1.1.1.keep hf (by decide), h.1.1.1.1.2.keep hf (by decide)⟩,
      h.1.1.1.2.keep hf (by decide)⟩, (csqRead_keep hf (by decide)).trans h.1.1.2⟩,
      (hf.qimux (by decide)).trans h.1.2.1,
      (switchedOn_keep hf (by decide) (by decide)).trans h.1.2.2⟩) (by decide)).conseq
    (fun _ => id) ?_ fun _ _ => id
  rintro _ s ⟨⟨hfits, hframe⟩, ⟨⟨⟨hreg, hcgact⟩, hcsq⟩, hqimux, hcipmux⟩, hcifsr⟩
  exact ⟨⟨hfits, hframe.mono (by decide)⟩, hreg.1, hreg.2, hcgact, hcsq, hqimux, hcipmux,
    hcifsr⟩

/-- **One attempt.** If it ends well, it was acknowledged to the end, and it has established
what it reports exactly when it has read anew. If it is left early, it was not acknowledged
to the end and has not established it. A fault means that an answer does not fit. -/
theorem attempt_spec (answer : InitCmd → Nat → List Bytes) (connected : Bool) (held : Int) :
    Ends ((attempt answer connected).exec (initState held))
      (fun _ s => Fits answer s.issued ∧ Acknowledged answer s.issued .gpsQuery .gpsOn ∧
        (Established answer s.issued ↔ ReadsAnew answer held))
      (fun e s => if e = .fault then ¬ Fits answer s.issued
        else Fits answer s.issued ∧ ¬ Acknowledged answer s.issued .gpsQuery .gpsOn ∧
          ¬ Established answer s.issued) := by
  have hstart : Fits answer (initState held).issued := fun c n hn => absurd hn (Nat.not_lt_zero n)
  refine Triple.bind
    ((attemptNetwork_spec connected held).conseq (fun _ => id) (fun _ _ => id) ?_) ?_
    (initState held) ⟨⟨hstart, Frame.refl _ _⟩, trivial⟩
  · -- The GPS has not been asked for.
    intro e s hleft
    unfold Left at hleft
    split
    · rwa [if_pos ‹_›] at hleft
    · rw [if_neg ‹_›] at hleft
      have hzero : s.issued .gpsQuery = 0 := hleft.2.issued .gpsQuery (by decide)
      have hzero' : s.issued .gpsOn = 0 := hleft.2.issued .gpsOn (by decide)
      refine ⟨hleft.1, fun h => ?_, fun h => ?_⟩
      · exact absurd (hzero ▸ h.1) (lt_irrefl 0)
      · rcases h.gps with ⟨n, hn, -⟩ | ⟨n, hn, -⟩
        · exact absurd (hzero ▸ hn) (Nat.not_lt_zero n)
        · exact absurd (hzero' ▸ hn) (Nat.not_lt_zero n)
  · rintro _ s ⟨⟨hfits, hframe⟩, hfound⟩
    refine (switchOn_ends (by decide) rfl (by decide) hfits
      (hframe.issued .gpsQuery (by decide)) (hframe.issued .gpsOn (by decide))).mono ?_ ?_
    · rintro _ s' ⟨⟨hfits', hframe'⟩, hack, -, hgps⟩
      refine ⟨hfits', hack, fun h => ⟨?_, ?_, ?_⟩, fun h => ?_⟩
      · exact hfound.csq.mp ((csqRead_keep hframe' (by decide)).mp h.csq)
      · exact hfound.cipmux.mp
          ((switchedOn_keep hframe' (by decide) (by decide)).mp h.cipmux)
      · rw [← hfound.qimux]
        exact hgps.mp h.gps
      · refine ⟨hfound.ccid.keep hframe' (by decide), hfound.creg.keep hframe' (by decide),
          hfound.cgact.keep hframe' (by decide), ?_, ?_, hfound.cifsr.keep hframe' (by decide),
          ?_⟩
        · exact (csqRead_keep hframe' (by decide)).mpr (hfound.csq.mpr h.csq)
        · exact (switchedOn_keep hframe' (by decide) (by decide)).mpr
            (hfound.cipmux.mpr h.cipmux)
        · refine hgps.mpr ?_
          rw [hfound.qimux]
          exact h.gps
    · rintro e s' ⟨hleft, hno⟩
      unfold Left at hleft
      split
      · rwa [if_pos ‹_›] at hleft
      · rename_i hne
        rw [if_neg hne] at hleft
        exact ⟨hleft.1, (hno hne).1, fun h => (hno hne).2 h.gps⟩

/-! ### The thread -/

/-- The loop makes no more attempts than it has left. -/
theorem length_initLoop (a : InitAnswers) (n k : Nat) (qimux : Int) (result : InitResult) :
    (initLoop a n k qimux result).2.length ≤ n := by
  induction n generalizing k qimux result with
  | zero => exact Nat.le_refl 0
  | succ n ih =>
      rw [initLoop]
      split
      · exact Nat.succ_le_succ (Nat.zero_le n)
      · exact Nat.succ_le_succ (Nat.zero_le n)
      · exact Nat.succ_le_succ (ih _ _ _)
      · exact Nat.succ_le_succ (ih _ _ _)

/-- An attempt that is left early is no attempt to look for. -/
theorem exists_established_cons {a : InitAnswers} {x : Attempt} {attempts : List Attempt}
    (hx : ¬ Established (a.lines x.index) x.issued) :
    (∃ y ∈ x :: attempts, Established (a.lines y.index) y.issued) ↔
      ∃ y ∈ attempts, Established (a.lines y.index) y.issued := by
  simp [hx]

/-- The promise about the loop, from any attempt on. -/
theorem initLoop_iff (a : InitAnswers) (n k : Nat) (qimux : Int) {result : InitResult}
    (hresult : n = 0 → result ≠ .eok ∧ result ≠ .fault) :
    ((initLoop a n k qimux result).1 ≠ .fault ∧ ((initLoop a n k qimux result).1 = .eok →
        ∃ x ∈ (initLoop a n k qimux result).2, Established (a.lines x.index) x.issued)) ↔
      AllReadAnew a (initLoop a n k qimux result).2 := by
  induction n generalizing k qimux result with
  | zero =>
      obtain ⟨hne, hfault⟩ := hresult rfl
      refine iff_of_true ⟨hfault, fun h => absurd h hne⟩ ?_
      intro x hx
      cases hx
  | succ n ih =>
      have hspec := attempt_spec (a.lines k) (a.connects k) qimux
      -- An attempt that is left early meets the guard and has established nothing.
      have hexit : ∀ (s : InitState) (e : InitResult), e ≠ .eok ∧ e ≠ .fault →
          Fits (a.lines k) s.issued ∧ ¬ Acknowledged (a.lines k) s.issued .gpsQuery .gpsOn ∧
            ¬ Established (a.lines k) s.issued →
          (((initLoop a n (k + 1) s.qimux e).1 ≠ .fault ∧
              ((initLoop a n (k + 1) s.qimux e).1 = .eok →
                ∃ x ∈ (⟨k, qimux, s.issued⟩ : Attempt) :: (initLoop a n (k + 1) s.qimux e).2,
                  Established (a.lines x.index) x.issued)) ↔
            AllReadAnew a (⟨k, qimux, s.issued⟩ :: (initLoop a n (k + 1) s.qimux e).2)) := by
        rintro s e he ⟨hfits, hack, hest⟩
        rw [exists_established_cons hest, ih (k + 1) s.qimux fun _ => he, AllReadAnew,
          AllReadAnew, List.forall_mem_cons]
        exact ⟨fun h => ⟨⟨hfits, fun h' => absurd h' hack⟩, h⟩, fun h => h.2⟩
      rw [initLoop]
      unfold Ends at hspec
      split
      · rename_i s hrun
        rw [hrun] at hspec
        obtain ⟨hfits, hack, hest⟩ := hspec
        simp only [AllReadAnew, List.mem_singleton, forall_eq, exists_eq_left, hest]
        exact ⟨fun h => ⟨hfits, fun _ => h.2 trivial⟩,
          fun h => ⟨by decide, fun _ => h.2 hack⟩⟩
      · rename_i s hrun
        rw [hrun] at hspec
        refine iff_of_false (fun h => h.1 rfl) fun h => ?_
        exact hspec (h _ (List.mem_singleton_self _)).1
      · rename_i s hrun
        rw [hrun] at hspec
        exact hexit s .error (by decide) hspec
      · rename_i s hrun
        rw [hrun] at hspec
        exact hexit s .etimeout (by decide) hspec

/-- A modem that answers well, but whose `AT+CSQ` answer has no `+CSQ:` line. -/
def answersWithoutCsq : InitAnswers where
  createResp := true
  connects := fun _ => true
  lines := fun _ c _ =>
    match c with
    | .ati => List.replicate 5 (ascii "A9G\r\n")
    | .ccid => [ascii "+CCID: 89860\r\n", ascii "OK\r\n"]
    | .cregQuery => [ascii "+CREG: 1,1\r\n", ascii "OK\r\n"]
    | .cipmuxQuery => [ascii "+CIPMUX:1\r\n", ascii "OK\r\n"]
    | .cifsr => [ascii "10.0.0.1\r\n", ascii "OK\r\n"]
    | .gpsQuery => [ascii "+GPS: 1\r\n", ascii "OK\r\n"]
    | _ => [ascii "OK\r\n"]

end CarLocator.A9g
