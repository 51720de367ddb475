import CarLocator.Library.Decimal
import Mathlib.Data.List.TakeWhile

/-!
# `CarLocator.Library.Scanf`: formatted input

`scan` runs a `scanf` format, given as a list of directives, over a text and returns the
values it assigns, in order. It stops at the first directive that does not match, with the
values assigned so far. A number that does not fit into an `int` is undefined in C, and
`scan` returns `none` for it.

`scanInt_decimal` is the rule for the round trip of a printed number.
-/

set_option autoImplicit false

namespace CarLocator.Library

/-- The directives of a format. -/
inductive Directive
  -- white space in the format: skips any white space of the text
  | space
  -- a character that the text has to repeat
  | lit (b : UInt8)
  -- `%d`, or `%*d` without the assignment
  | int (assign : Bool)
  -- `%s`, or `%*s`
  | str (assign : Bool)
  -- `%[^set]`, or `%*[^set]`
  | noneOf (set : Bytes) (assign : Bool)
  deriving DecidableEq, Repr

/-- The value of a conversion. -/
inductive Scanned
  | int (v : Int)
  | str (text : Bytes)
  deriving DecidableEq, Repr

/-- What one directive does to a text. -/
inductive Match
  -- the behaviour is undefined
  | undefined
  -- the directive does not match
  | stop
  -- it matches, with the value of a conversion
  | next (val : Option Scanned) (rest : Bytes)
  deriving DecidableEq, Repr

/-- The white space of the C locale. -/
def isSpace (b : UInt8) : Bool := b = 32 || (9 ≤ b && b ≤ 13)

/-- The range of `int`. -/
def fitsInt (v : Int) : Prop := -2 ^ 31 ≤ v ∧ v < 2 ^ 31

instance (v : Int) : Decidable (fitsInt v) :=
  inferInstanceAs (Decidable (-2 ^ 31 ≤ v ∧ v < 2 ^ 31))

/-- The digits at the start of a text, with a sign in front of them. -/
def scanDigits (neg : Bool) (text : Bytes) : Match :=
  let digits := text.takeWhile isDigit
  let v : Int := if neg then -(decVal digits : Int) else decVal digits
  if digits = [] then .stop
  else if fitsInt v then .next (some (.int v)) (text.dropWhile isDigit)
  else .undefined

/-- `%d`: white space, an optional sign, digits. -/
def scanInt (text : Bytes) : Match :=
  match text.dropWhile isSpace with
  | [] => .stop
  | b :: rest =>
    if b = 45 then scanDigits true rest
    else if b = 43 then scanDigits false rest
    else scanDigits false (b :: rest)

/-- `%s` and `%[^..]`: the bytes at the start that belong to the conversion. -/
def scanStr (keep : UInt8 → Bool) (text : Bytes) : Match :=
  let word := text.takeWhile keep
  if word = [] then .stop else .next (some (.str word)) (text.dropWhile keep)

/-- One directive. -/
def Directive.apply : Directive → Bytes → Match
  | .space, text => .next none (text.dropWhile isSpace)
  | .lit b, text => if text.head? = some b then .next none (text.drop 1) else .stop
  | .int assign, text =>
    match scanInt text with
    | .next v rest => .next (if assign then v else none) rest
    | r => r
  | .str assign, text =>
    match scanStr (fun b => !isSpace b) (text.dropWhile isSpace) with
    | .next v rest => .next (if assign then v else none) rest
    | r => r
  | .noneOf set assign, text =>
    match scanStr (fun b => !set.contains b) text with
    | .next v rest => .next (if assign then v else none) rest
    | r => r

/-- A format over a text: the values assigned. -/
def scan : List Directive → Bytes → Option (List Scanned)
  | [], _ => some []
  | d :: format, text =>
    match d.apply text with
    | .undefined => none
    | .stop => some []
    | .next v rest => (scan format rest).map (v.toList ++ ·)

/-- The literal part of a format. -/
def lits (text : Bytes) : List Directive := text.map .lit

/-! ### Rules -/

/-- The literal part of a format that the text repeats. -/
theorem scan_lits (text : Bytes) (format : List Directive) (rest : Bytes) :
    scan (lits text ++ format) (text ++ rest) = scan format rest := by
  induction text with
  | nil => rfl
  | cons b text ih =>
      show scan (.lit b :: (lits text ++ format)) (b :: (text ++ rest)) = _
      simp [scan, Directive.apply, ih]

/-- A literal part that the text does not repeat. -/
theorem scan_lits_of_not_prefix {text line : Bytes} (h : ¬ text <+: line)
    (format : List Directive) : scan (lits text ++ format) line = some [] := by
  induction text generalizing line with
  | nil => exact absurd List.nil_prefix h
  | cons b text ih =>
      show scan (.lit b :: (lits text ++ format)) line = _
      cases line with
      | nil => simp [scan, Directive.apply]
      | cons c line =>
          by_cases hbc : c = b
          · subst hbc
            simp [scan, Directive.apply, ih fun hpre => h (List.cons_prefix_cons.mpr ⟨rfl, hpre⟩)]
          · simp [scan, Directive.apply, hbc]

/-- A single literal. -/
theorem scan_lit (b : UInt8) (format : List Directive) (rest : Bytes) :
    scan (.lit b :: format) (b :: rest) = scan format rest :=
  scan_lits [b] format rest

/-- White space in the format. -/
theorem scan_space (format : List Directive) (text : Bytes) :
    scan (.space :: format) text = scan format (text.dropWhile isSpace) := by
  rw [scan, Directive.apply]
  exact Option.map_id'

/-- No digit is white space or a sign. -/
theorem isDigit_ne {b c : UInt8} (hb : isDigit b = true) (hc : isDigit c = false) :
    b ≠ c := by
  rintro rfl
  rw [hb] at hc
  cases hc

/-- No digit is white space. -/
theorem isSpace_of_isDigit {b : UInt8} (h : isDigit b = true) : isSpace b = false := by
  have hb := (isDigit_iff b).mp h
  have h32 : b ≠ 32 := isDigit_ne h (by decide)
  have h13 : ¬ b ≤ 13 := by
    rw [UInt8.le_iff_toNat_le]
    show ¬ b.toNat ≤ 13
    omega
  simp [isSpace, h32, h13]

/-- The digits of a text that starts with some. -/
theorem takeWhile_digits {ds : Bytes} (hds : ∀ b ∈ ds, isDigit b = true) {rest : Bytes}
    (hrest : ∀ b ∈ rest.head?, isDigit b = false) :
    (ds ++ rest).takeWhile isDigit = ds ∧ (ds ++ rest).dropWhile isDigit = rest := by
  rw [List.takeWhile_append_of_pos hds, List.dropWhile_append_of_pos hds]
  cases rest with
  | nil => simp
  | cons b rest =>
      have hb : ¬ isDigit b = true := by simp [hrest b (by simp)]
      rw [List.takeWhile_cons_of_neg hb, List.dropWhile_cons_of_neg hb, List.append_nil]
      exact ⟨rfl, rfl⟩

/-- A number as `%d` reads it: white space, a sign or none, digits. -/
structure IntText where
  space : Bytes
  sign : Bytes
  digits : Bytes
  space_bytes : ∀ b ∈ space, isSpace b = true
  sign_form : sign = [] ∨ sign = [45] ∨ sign = [43]
  digits_ne : digits ≠ []
  digits_bytes : ∀ b ∈ digits, isDigit b = true

namespace IntText

/-- The text. -/
def text (n : IntText) : Bytes := n.space ++ (n.sign ++ n.digits)

/-- The value. -/
def value (n : IntText) : Int := if n.sign = [45] then -(decVal n.digits : Int) else decVal n.digits

end IntText

/-- `scanDigits` on digits up to a byte that is not a digit. -/
theorem scanDigits_append (neg : Bool) {ds : Bytes} (hne : ds ≠ [])
    (hds : ∀ b ∈ ds, isDigit b = true) {rest : Bytes}
    (hrest : ∀ b ∈ rest.head?, isDigit b = false) :
    scanDigits neg (ds ++ rest)
      = if fitsInt (if neg then -(decVal ds : Int) else decVal ds) then
          .next (some (.int (if neg then -(decVal ds : Int) else decVal ds))) rest
        else .undefined := by
  obtain ⟨htake, hdrop⟩ := takeWhile_digits hds hrest
  simp only [scanDigits, htake, hdrop, if_neg hne]

/-- The sign and the digits are not white space. -/
theorem IntText.not_space (n : IntText) {b : UInt8} (hb : b ∈ n.sign ++ n.digits) :
    isSpace b = false := by
  rcases List.mem_append.mp hb with hb | hb
  · rcases n.sign_form with h | h | h <;> rw [h] at hb
    · cases hb
    · rw [List.mem_singleton.mp hb]
      rfl
    · rw [List.mem_singleton.mp hb]
      rfl
  · exact isSpace_of_isDigit (n.digits_bytes b hb)

/-- A number behind its white space. -/
theorem IntText.dropWhile_text (n : IntText) (rest : Bytes) :
    (n.text ++ rest).dropWhile isSpace = n.sign ++ n.digits ++ rest := by
  rw [IntText.text, List.append_assoc, List.dropWhile_append_of_pos n.space_bytes]
  cases hl : n.sign ++ n.digits with
  | nil => exact absurd (List.append_eq_nil_iff.mp hl).2 n.digits_ne
  | cons b l =>
      have hb := n.not_space (b := b) (by simp [hl])
      rw [List.cons_append, List.dropWhile_cons_of_neg (by simp [hb])]

/-- **`%d` on a number** up to a byte that is not a digit. -/
theorem scanInt_intText (n : IntText) {rest : Bytes}
    (hrest : ∀ b ∈ rest.head?, isDigit b = false) :
    scanInt (n.text ++ rest)
      = if fitsInt n.value then .next (some (.int n.value)) rest else .undefined := by
  have hdigits := fun neg => scanDigits_append neg n.digits_ne n.digits_bytes hrest
  obtain ⟨d, ds, hd⟩ := List.exists_cons_of_ne_nil n.digits_ne
  have hisd : isDigit d = true := n.digits_bytes d (by simp [hd])
  have hdrop : (n.text ++ rest).dropWhile isSpace = n.sign ++ (n.digits ++ rest) := by
    rw [n.dropWhile_text, List.append_assoc]
  rcases n.sign_form with h | h | h
  · have hval : n.value = decVal n.digits := by
      rw [IntText.value, h]
      exact if_neg (by decide)
    have hnone := hdigits false
    rw [if_neg Bool.false_ne_true, ← hval] at hnone
    rw [scanInt, hdrop, h, List.nil_append, ← hnone, hd, List.cons_append]
    simp only [isDigit_ne hisd (show isDigit 45 = false by decide),
      isDigit_ne hisd (show isDigit 43 = false by decide), if_false]
  · have hval : n.value = -(decVal n.digits : Int) := by rw [IntText.value, if_pos h]
    have hminus := hdigits true
    rw [if_pos rfl, ← hval] at hminus
    rw [scanInt, hdrop, h, ← hminus]
    show (if (45 : UInt8) = 45 then _ else _) = _
    rw [if_pos rfl]
    rfl
  · have hval : n.value = decVal n.digits := by
      rw [IntText.value, h]
      exact if_neg (by decide)
    have hplus := hdigits false
    rw [if_neg Bool.false_ne_true, ← hval] at hplus
    rw [scanInt, hdrop, h, ← hplus]
    show (if (43 : UInt8) = 45 then _ else if (43 : UInt8) = 43 then _ else _) = _
    rw [if_neg (show ¬ (43 : UInt8) = 45 by decide), if_pos rfl]
    rfl

/-- **The cases of `%d`**: a text that does not start with a number, or a number up to a byte that
is not a digit. -/
theorem scanInt_cases (text : Bytes) :
    scanInt text = .stop ∨ ∃ (n : IntText) (rest : Bytes), text = n.text ++ rest
      ∧ ∀ b ∈ rest.head?, isDigit b = false := by
  -- A number behind the white space and the sign.
  have hdigits : ∀ (neg : Bool) (sign num : Bytes), (sign = [] ∨ sign = [45] ∨ sign = [43]) →
      text.dropWhile isSpace = sign ++ num → scanDigits neg num = .stop
        ∨ ∃ (n : IntText) (rest : Bytes), text = n.text ++ rest
          ∧ ∀ b ∈ rest.head?, isDigit b = false := by
    intro neg sign num hsign hnum
    by_cases hne : num.takeWhile isDigit = []
    · exact Or.inl (by rw [scanDigits]; exact if_pos hne)
    · refine Or.inr ⟨⟨text.takeWhile isSpace, sign, num.takeWhile isDigit,
        fun b hb => List.mem_takeWhile_imp hb, hsign, hne,
        fun b hb => List.mem_takeWhile_imp hb⟩, num.dropWhile isDigit, ?_, fun b hb => ?_⟩
      · rw [IntText.text, List.append_assoc, List.append_assoc, List.takeWhile_append_dropWhile,
          ← hnum, List.takeWhile_append_dropWhile]
      · have hnot := List.head?_dropWhile_not isDigit num
        rw [Option.mem_def.mp hb] at hnot
        simpa using hnot
  rw [scanInt]
  cases hdrop : text.dropWhile isSpace with
  | nil => exact Or.inl rfl
  | cons b num =>
      simp only
      split
      · rename_i hminus
        exact hdigits true [45] num (by simp) (by rw [hdrop, hminus]; rfl)
      · split
        · rename_i hplus
          exact hdigits false [43] num (by simp) (by rw [hdrop, hplus]; rfl)
        · exact hdigits false [] (b :: num) (by simp) hdrop

/-- `%d` in a format, where the text starts with a number. -/
theorem scan_int_intText (n : IntText) {rest : Bytes}
    (hrest : ∀ b ∈ rest.head?, isDigit b = false) (format : List Directive) :
    scan (.int true :: format) (n.text ++ rest)
      = if fitsInt n.value then (scan format rest).map (.int n.value :: ·) else none := by
  rw [scan, Directive.apply, scanInt_intText n hrest]
  by_cases hfits : fitsInt n.value
  · rw [if_pos hfits, if_pos hfits]
    rfl
  · rw [if_neg hfits, if_neg hfits]

/-- `%d` in a format, where there is no number. -/
theorem scan_int_stop {text : Bytes} (h : scanInt text = .stop) (format : List Directive) :
    scan (.int true :: format) text = some [] := by
  rw [scan, Directive.apply, h]

/-- White space is skipped once. -/
theorem dropWhile_dropWhile_isSpace (text : Bytes) :
    (text.dropWhile isSpace).dropWhile isSpace = text.dropWhile isSpace := by
  have hhead := List.head?_dropWhile_not isSpace text
  cases hdrop : text.dropWhile isSpace with
  | nil => rfl
  | cons b rest =>
      rw [hdrop] at hhead
      exact List.dropWhile_cons_of_neg (by simpa using hhead)

/-- `%d` skips the white space itself. -/
theorem scan_space_int (assign : Bool) (format : List Directive) (text : Bytes) :
    scan (.space :: .int assign :: format) text = scan (.int assign :: format) text := by
  have hskip : scanInt (text.dropWhile isSpace) = scanInt text := by
    rw [scanInt, scanInt, dropWhile_dropWhile_isSpace]
  rw [scan_space, scan, scan, Directive.apply, Directive.apply, hskip]

/-- A printed number. -/
def decimalText (n : Nat) : IntText :=
  ⟨[], [], decimal n, by simp, Or.inl rfl, decimal_ne_nil n, fun _ hb => isDigit_of_mem_decimal hb⟩

/-- Its value. -/
theorem value_decimalText (n : Nat) : (decimalText n).value = n := by
  have hsign : ¬ (decimalText n).sign = [45] := (by decide : ¬ ([] : Bytes) = [45])
  rw [IntText.value, if_neg hsign]
  exact congrArg Nat.cast (decVal_decimal n)

/-- **`%d` on a printed number.** -/
theorem scan_int_decimal (n : Nat) {rest : Bytes}
    (hrest : ∀ b ∈ rest.head?, isDigit b = false) (format : List Directive) :
    scan (.int true :: format) (decimal n ++ rest)
      = if n < 2 ^ 31 then (scan format rest).map (.int n :: ·) else none := by
  have hfits : fitsInt (n : Int) ↔ n < 2 ^ 31 := by
    unfold fitsInt
    omega
  have h := scan_int_intText (decimalText n) hrest format
  rw [value_decimalText] at h
  simp only [hfits] at h
  exact h

/-- **A text that `%d` reads whole** is white space, a sign or none, and digits; and `%d` reads
it in front of anything that does not go on with a digit. -/
theorem scanInt_whole {text : Bytes} {v : Option Scanned} (h : scanInt text = .next v []) :
    (∃ sp sign ds, text = sp ++ (sign ++ ds) ∧ (∀ b ∈ sp, isSpace b = true) ∧
        (∀ b ∈ sign, b = 45 ∨ b = 43) ∧ ds ≠ [] ∧ ∀ b ∈ ds, isDigit b = true) ∧
      ∀ rest : Bytes, (∀ b ∈ rest.head?, isDigit b = false) →
        scanInt (text ++ rest) = .next v rest := by
  rcases scanInt_cases text with hstop | ⟨n, rest, rfl, hrest⟩
  · rw [hstop] at h
    cases h
  · rw [scanInt_intText n hrest] at h
    split at h
    · rename_i hfits
      obtain ⟨rfl, rfl⟩ := Match.next.inj h
      rw [List.append_nil]
      refine ⟨⟨n.space, n.sign, n.digits, rfl, n.space_bytes, ?_, n.digits_ne,
        n.digits_bytes⟩, fun rest hrest => ?_⟩
      · rcases n.sign_form with h | h | h <;> simp [h]
      · rw [scanInt_intText n hrest, if_pos hfits]
    · cases h

/-- A literal, read backwards: it stands in the text, or nothing more is assigned. -/
theorem scan_lit_cases {b : UInt8} {format : List Directive} {text : Bytes}
    {vals : List Scanned} (h : scan (.lit b :: format) text = some vals) :
    vals = [] ∨ ∃ rest, text = b :: rest ∧ scan format rest = some vals := by
  rw [scan, Directive.apply] at h
  by_cases hhead : text.head? = some b
  · rw [if_pos hhead] at h
    obtain ⟨rest, rfl⟩ := List.head?_eq_some_iff.mp hhead
    refine Or.inr ⟨rest, rfl, ?_⟩
    simpa using h
  · rw [if_neg hhead] at h
    cases h
    exact Or.inl rfl

/-- `%[^..]`, read backwards: a word of the text up to the first byte of the set, or nothing
more is assigned. -/
theorem scan_noneOf_cases {set : Bytes} {assign : Bool} {format : List Directive} {text : Bytes}
    {vals : List Scanned} (h : scan (.noneOf set assign :: format) text = some vals) :
    vals = [] ∨ ∃ word rest more, text = word ++ rest ∧ word ≠ [] ∧ (∀ b ∈ word, b ∉ set) ∧
      (∀ b ∈ rest.head?, b ∈ set) ∧ scan format rest = some more ∧
      vals = (if assign then [.str word] else []) ++ more := by
  simp only [scan, Directive.apply, scanStr] at h
  by_cases hword : text.takeWhile (fun b => !set.contains b) = []
  · rw [if_pos hword] at h
    cases h
    exact Or.inl rfl
  · rw [if_neg hword] at h
    obtain ⟨more, hmore, rfl⟩ := Option.map_eq_some_iff.mp h
    refine Or.inr ⟨_, _, more, List.takeWhile_append_dropWhile.symm, hword, fun b hb => ?_,
      fun b hb => ?_, hmore, ?_⟩
    · simpa using List.mem_takeWhile_imp hb
    · have hnot := List.head?_dropWhile_not (fun b => !set.contains b) text
      rw [Option.mem_def.mp hb] at hnot
      simpa using hnot
    · cases assign <;> rfl

/-- A word that is read and not assigned leaves no value, whether it is there or not. -/
theorem scan_str_skip (text : Bytes) : scan [.str false] text = some [] := by
  by_cases hword : (text.dropWhile isSpace).takeWhile (fun b => !isSpace b) = []
  · simp [scan, Directive.apply, scanStr, hword]
  · simp [scan, Directive.apply, scanStr, hword]

/-! ### The kinds of the values -/

/-- The directive assigns a number. -/
def Directive.assignsInt : Directive → Bool
  | .int assign => assign
  | _ => false

/-- The directive assigns a text. -/
def Directive.assignsStr : Directive → Bool
  | .str assign | .noneOf _ assign => assign
  | _ => false

/-- `%d` converts to a number. -/
theorem scanInt_next {text rest : Bytes} {v : Option Scanned}
    (h : scanInt text = .next v rest) : ∃ n, v = some (.int n) := by
  have hdigits : ∀ neg text, scanDigits neg text = .next v rest → ∃ n, v = some (.int n) := by
    intro neg text h
    simp only [scanDigits] at h
    generalize (if neg = true then _ else _ : Int) = n at h
    split at h
    · cases h
    · split at h
      · cases h
        exact ⟨n, rfl⟩
      · cases h
  rw [scanInt] at h
  split at h
  · cases h
  · split at h
    · exact hdigits _ _ h
    · split at h
      · exact hdigits _ _ h
      · exact hdigits _ _ h

/-- `%s` and `%[^..]` convert to a text. -/
theorem scanStr_next {keep : UInt8 → Bool} {text rest : Bytes} {v : Option Scanned}
    (h : scanStr keep text = .next v rest) : ∃ word, v = some (.str word) := by
  simp only [scanStr] at h
  split at h
  · cases h
  · cases h
    exact ⟨_, rfl⟩

/-- The value of a directive is of the kind it assigns. -/
theorem Directive.apply_next {d : Directive} {text rest : Bytes} {val : Scanned}
    (h : d.apply text = .next (some val) rest) :
    (∃ n, val = .int n ∧ d.assignsInt = true) ∨
      (∃ word, val = .str word ∧ d.assignsStr = true) := by
  cases d with
  | space => cases h
  | lit b =>
      simp only [Directive.apply] at h
      split at h <;> cases h
  | int assign =>
      simp only [Directive.apply] at h
      split at h
      · rename_i v rest' hscan
        obtain ⟨n, rfl⟩ := scanInt_next hscan
        cases assign with
        | true =>
            cases h
            exact Or.inl ⟨n, rfl, rfl⟩
        | false => cases h
      · rename_i hscan
        exact absurd h (hscan _ _)
  | str assign =>
      simp only [Directive.apply] at h
      split at h
      · rename_i v rest' hscan
        obtain ⟨word, rfl⟩ := scanStr_next hscan
        cases assign with
        | true =>
            cases h
            exact Or.inr ⟨word, rfl, rfl⟩
        | false => cases h
      · rename_i hscan
        exact absurd h (hscan _ _)
  | noneOf set assign =>
      simp only [Directive.apply] at h
      split at h
      · rename_i v rest' hscan
        obtain ⟨word, rfl⟩ := scanStr_next hscan
        cases assign with
        | true =>
            cases h
            exact Or.inr ⟨word, rfl, rfl⟩
        | false => cases h
      · rename_i hscan
        exact absurd h (hscan _ _)

/-- Every value of a scan comes from a directive of its kind. -/
theorem scan_kind {format : List Directive} {text : Bytes} {vals : List Scanned}
    {val : Scanned} (h : scan format text = some vals) (hval : val ∈ vals) :
    (∃ n, val = .int n ∧ ∃ d ∈ format, d.assignsInt = true) ∨
      (∃ word, val = .str word ∧ ∃ d ∈ format, d.assignsStr = true) := by
  induction format generalizing text vals with
  | nil =>
      cases h
      cases hval
  | cons d format ih =>
      rw [scan] at h
      split at h
      · cases h
      · cases h
        cases hval
      · rename_i v rest hd
        obtain ⟨more, hmore, rfl⟩ := Option.map_eq_some_iff.mp h
        rcases List.mem_append.mp hval with hv | hv
        · cases v with
          | none => cases hv
          | some val' =>
              rw [Option.toList_some, List.mem_singleton] at hv
              subst hv
              exact (Directive.apply_next hd).imp
                (fun ⟨n, hn, hd⟩ => ⟨n, hn, d, List.mem_cons_self, hd⟩)
                (fun ⟨word, hw, hd⟩ => ⟨word, hw, d, List.mem_cons_self, hd⟩)
        · exact (ih hmore hv).imp
            (fun ⟨n, hn, d', hd', hi⟩ => ⟨n, hn, d', List.mem_cons_of_mem _ hd', hi⟩)
            (fun ⟨word, hw, d', hd', hi⟩ => ⟨word, hw, d', List.mem_cons_of_mem _ hd', hi⟩)

/-! ### The text that a conversion gets -/

/-- The directives that assign nothing and whose behaviour is always defined. -/
def Directive.silent : Directive → Bool
  | .space | .lit _ => true
  | .str assign | .noneOf _ assign => !assign
  | .int _ => false

/-- What directives without a value leave of a text, if they match. -/
def skip : List Directive → Bytes → Option Bytes
  | [], text => some text
  | d :: format, text =>
    match d.apply text with
    | .next _ rest => skip format rest
    | _ => none

/-- A silent directive does not match, or it takes something off the text. -/
theorem apply_of_silent {d : Directive} (h : d.silent = true) (text : Bytes) :
    d.apply text = .stop ∨ ∃ rest, d.apply text = .next none rest := by
  have hscan : ∀ (keep : UInt8 → Bool) (text : Bytes),
      scanStr keep text = .stop ∨ ∃ val rest, scanStr keep text = .next val rest := by
    intro keep text
    rw [scanStr]
    split
    · exact Or.inl rfl
    · exact Or.inr ⟨_, _, rfl⟩
  cases d with
  | space => exact Or.inr ⟨_, rfl⟩
  | lit b =>
      rw [Directive.apply]
      split
      · exact Or.inr ⟨_, rfl⟩
      · exact Or.inl rfl
  | int assign => cases h
  | str assign =>
      obtain rfl : assign = false := by simpa [Directive.silent] using h
      rw [Directive.apply]
      rcases hscan (fun b => !isSpace b) (text.dropWhile isSpace) with hs | ⟨val, rest, hs⟩
      · exact Or.inl (by rw [hs])
      · exact Or.inr ⟨rest, by rw [hs]; rfl⟩
  | noneOf set assign =>
      obtain rfl : assign = false := by simpa [Directive.silent] using h
      rw [Directive.apply]
      rcases hscan (fun b => !set.contains b) text with hs | ⟨val, rest, hs⟩
      · exact Or.inl (by rw [hs])
      · exact Or.inr ⟨rest, by rw [hs]; rfl⟩

/-- **The rule for a prefix** of silent directives: the rest of the format gets what they
leave. -/
theorem scan_append_of_silent {format : List Directive} (h : ∀ d ∈ format, d.silent = true)
    (last : List Directive) (text : Bytes) :
    scan (format ++ last) text = (skip format text).elim (some []) (scan last) := by
  induction format generalizing text with
  | nil => rfl
  | cons d format ih =>
      have hrest := ih fun d' hd' => h d' (List.mem_cons_of_mem d hd')
      rcases apply_of_silent (h d List.mem_cons_self) text with hstop | ⟨rest, hnext⟩
      · simp only [List.cons_append, scan, skip, hstop, Option.elim_none]
      · simp only [List.cons_append, scan, skip, hnext, hrest rest, Option.toList_none,
          List.nil_append, Option.map_id']

/-- A word is shorter than `n` when one of the first `n` bytes ends it, or the text does. -/
theorem length_takeWhile_lt_iff (keep : UInt8 → Bool) (text : Bytes) (n : Nat) :
    (text.takeWhile keep).length < n ↔ ∃ i < n, ∀ b ∈ text[i]?, keep b = false := by
  induction text generalizing n with
  | nil => exact ⟨fun h => ⟨0, h, by simp⟩, fun ⟨i, hi, _⟩ => Nat.zero_lt_of_lt hi⟩
  | cons b text ih =>
      cases hb : keep b with
      | false =>
          rw [List.takeWhile_cons_of_neg (by simp [hb])]
          constructor
          · exact fun h => ⟨0, h, by simpa using hb⟩
          · exact fun ⟨i, hi, _⟩ => Nat.zero_lt_of_lt hi
      | true =>
          rw [List.takeWhile_cons_of_pos hb, List.length_cons]
          constructor
          · intro h
            obtain ⟨i, hi, hstop⟩ := (ih (n - 1)).mp (by omega)
            exact ⟨i + 1, by omega, by simpa using hstop⟩
          · rintro ⟨i, hi, hstop⟩
            cases i with
            | zero =>
                have hfalse := hstop b (by simp)
                rw [hb] at hfalse
                cases hfalse
            | succ i =>
                have hlt := (ih (n - 1)).mpr ⟨i, by omega, by simpa using hstop⟩
                omega

end CarLocator.Library
