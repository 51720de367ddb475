import CarLocator.Library.Scanf

/-!
# `CarLocator.Gps.Reader`: the line framing of the reader thread

`gps_thread_entry` has `data_read` fill its line buffer from `uart_getchar`, up to a newline,
and hands the buffer to `GPS_Analysis`. `dataRead` is `data_read` on the bytes that
`uart_getchar` is going to return, and `none` while it still waits for one. A `LineBuffer`
is the memory at `buff` with the indices of all stores, which C does not check.

The index `count` has 8 bits, and the loop goes on while `count <= len`. `framed_iff` says
which streams are framed as intended: those with a newline among the first 255 bytes, and
before the last byte of the buffer, which the NUL needs. On any other stream the stores
leave the buffer or come around to its beginning. What is handed on is never longer than 255
bytes (`dataRead_text`).
-/

set_option autoImplicit false

namespace CarLocator.Gps

open CarLocator.Library

/-! ### `data_read` -/

/-- `GPS_DEVICE_RECV_BUFF_LEN`, the `len` of `gps_thread_entry`. -/
def gpsDeviceRecvBuffLen : Int := 512

/-- The memory from `buff` on, and the indices that were stored to, in order. -/
structure LineBuffer where
  mem : Nat → UInt8
  written : List Nat

/-- `buff[i] = b`. -/
def LineBuffer.store (buff : LineBuffer) (i : Nat) (b : UInt8) : LineBuffer :=
  ⟨Function.update buff.mem i b, buff.written ++ [i]⟩

/-- The loop of `data_read` and the NUL behind it. The result is the buffer, and the bytes that
are left for the next call. -/
def dataReadLoop (len : Int) : (count : UInt8) → LineBuffer → Bytes → Option (LineBuffer × Bytes)
  | _, _, [] => none
  | count, buff, uartRxByte :: bytes =>
    let buff := buff.store count.toNat uartRxByte
    let count := count + 1
    if uartRxByte ≠ 10 ∧ (count.toNat : Int) ≤ len then dataReadLoop len count buff bytes
    else some (buff.store count.toNat 0, bytes)

/-- `data_read`. -/
def dataRead (len : Int) (buff : Nat → UInt8) (bytes : Bytes) : Option (LineBuffer × Bytes) :=
  dataReadLoop len 0 ⟨buff, []⟩ bytes

/-! ### The intended framing -/

/-- The first `n` bytes of a stream. -/
def delivered (stream : Nat → UInt8) (n : Nat) : Bytes := (List.range n).map stream

/-- The line is complete with `n` bytes: a newline has been stored, or the buffer has only the
byte of the NUL left. -/
def LineComplete (len : Int) (stream : Nat → UInt8) (n : Nat) : Prop :=
  stream (n - 1) = 10 ∨ len ≤ n + 1

/-- The buffer after `n` bytes of the stream, as intended. -/
structure FramedAt (len : Int) (stream : Nat → UInt8) (n : Nat) (buff : LineBuffer) : Prop where
  complete : LineComplete len stream n
  first : ∀ k, 0 < k → k < n → ¬ LineComplete len stream k
  content : ∀ i < n, buff.mem i = stream i
  terminated : buff.mem n = 0
  once : buff.written.Nodup
  inside : ∀ i ∈ buff.written, (i : Int) < len

/-- `data_read` returns, and the line is framed as intended. -/
def Framed (len : Int) (buff : Nat → UInt8) (stream : Nat → UInt8) : Prop :=
  ∃ n out, dataRead len buff (delivered stream n) = some (out, []) ∧ FramedAt len stream n out

/-! ### The loop -/

/-- The buffer while the first `k` bytes are in it. -/
def filled (buff : Nat → UInt8) (stream : Nat → UInt8) (k : Nat) : LineBuffer :=
  ⟨fun i => if i < k then stream i else buff i, List.range k⟩

/-- One more byte. -/
theorem filled_store (buff stream : Nat → UInt8) (k : Nat) :
    (filled buff stream k).store k (stream k) = filled buff stream (k + 1) := by
  have hmem : Function.update (fun i => if i < k then stream i else buff i) k (stream k)
      = fun i => if i < k + 1 then stream i else buff i := by
    funext i
    by_cases hi : i = k
    · rw [hi, Function.update_self, if_pos (Nat.lt_succ_self k)]
    · rw [Function.update_of_ne hi]
      by_cases hlt : i < k
      · rw [if_pos hlt, if_pos (by omega)]
      · rw [if_neg hlt, if_neg (by omega)]
  simp only [filled, LineBuffer.store, hmem, List.range_succ]

/-- One more byte of the stream. -/
theorem delivered_succ (stream : Nat → UInt8) (n : Nat) :
    delivered stream (n + 1) = delivered stream n ++ [stream n] := by
  rw [delivered, List.range_succ, List.map_append]
  rfl

/-- A prefix of the stream. -/
theorem delivered_add (stream : Nat → UInt8) (k n : Nat) :
    delivered stream (k + n) = delivered stream k ++ delivered (fun i => stream (k + i)) n := by
  rw [delivered, List.range_add, List.map_append, List.map_map]
  rfl

/-- **The loop over bytes that do not end it**: up to the 255 that `count` can count. -/
theorem dataRead_append {len : Int} {stream : Nat → UInt8} (buff : Nat → UInt8) {k : Nat}
    (hk : k < 256) (hlen : (k : Int) ≤ len) (hline : ∀ i < k, stream i ≠ 10) (bytes : Bytes) :
    dataRead len buff (delivered stream k ++ bytes)
      = dataReadLoop len (UInt8.ofNat k) (filled buff stream k) bytes := by
  induction k generalizing bytes with
  | zero => simp [dataRead, delivered, filled]
  | succ k ih =>
      have hcount : UInt8.ofNat k + 1 = UInt8.ofNat (k + 1) := by
        rw [UInt8.ofNat_add]
        rfl
      have hk8 : (UInt8.ofNat k).toNat = k := by
        rw [UInt8.toNat_ofNat', Nat.mod_eq_of_lt (by omega)]
      have hsucc8 : (UInt8.ofNat (k + 1)).toNat = k + 1 := by
        rw [UInt8.toNat_ofNat', Nat.mod_eq_of_lt hk]
      have hgo : stream k ≠ 10 ∧ ((UInt8.ofNat (k + 1)).toNat : Int) ≤ len := by
        rw [hsucc8]
        exact ⟨hline k (Nat.lt_succ_self k), hlen⟩
      -- the first k bytes by induction, and one round of the loop for the last one
      rw [delivered_succ, List.append_assoc, List.singleton_append,
        ih (by omega) (by omega) (fun i hi => hline i (by omega)) (stream k :: bytes),
        dataReadLoop]
      simp only [hcount, hk8, filled_store, if_pos hgo]

/-- Whatever ends the loop, it stores at `count` and behind it. -/
theorem dataReadLoop_written {len : Int} {count : UInt8} {buff out : LineBuffer}
    {bytes rest : Bytes} (h : dataReadLoop len count buff bytes = some (out, rest)) :
    buff.written ++ [count.toNat, (count + 1).toNat] <+: out.written := by
  induction bytes generalizing count buff with
  | nil => cases h
  | cons b bytes ih =>
      simp only [dataReadLoop] at h
      split at h
      · have hpre := ih h
        rw [LineBuffer.store, List.append_assoc, List.singleton_append] at hpre
        refine List.IsPrefix.trans ?_ hpre
        exact ⟨[(count + 1 + 1).toNat], by simp⟩
      · cases h
        simp [LineBuffer.store]

/-- The last store is the NUL, at an index of 8 bits. -/
theorem dataReadLoop_terminated {len : Int} {count : UInt8} {buff out : LineBuffer}
    {bytes rest : Bytes} (h : dataReadLoop len count buff bytes = some (out, rest)) :
    ∃ i < 256, out.mem i = 0 := by
  induction bytes generalizing count buff with
  | nil => cases h
  | cons b bytes ih =>
      simp only [dataReadLoop] at h
      split at h
      · exact ih h
      · cases h
        exact ⟨_, (count + 1).toNat_lt, Function.update_self _ _ _⟩

/-- **What is handed on** ends after 255 bytes at the latest. -/
theorem dataRead_text {len : Int} {buff : Nat → UInt8} {bytes rest : Bytes} {out : LineBuffer}
    (h : dataRead len buff bytes = some (out, rest)) (size : Nat) :
    (cString ((List.range size).map out.mem)).length < 256 := by
  obtain ⟨i, hi, hzero⟩ := dataReadLoop_terminated h
  -- the text ends at this NUL or before it
  refine (length_takeWhile_lt_iff _ _ 256).mpr ⟨i, hi, fun b hb => ?_⟩
  rw [List.getElem?_map] at hb
  by_cases hisize : i < size
  · rw [List.getElem?_range hisize] at hb
    cases hb
    simp [hzero]
  · rw [List.getElem?_eq_none (by simpa using hisize)] at hb
    cases hb

/-! ### Which streams are framed -/

/-- A stream with a newline in time is framed. -/
theorem framed_of_newline {len : Int} {stream : Nat → UInt8} (buff : Nat → UInt8)
    (h : ∃ i : Nat, i < 255 ∧ (i : Int) + 1 < len ∧ stream i = 10) :
    Framed len buff stream := by
  -- The first of these newlines ends the line.
  obtain ⟨hi, hlen, hnl⟩ := Nat.find_spec h
  have hmin : ∀ j < Nat.find h, stream j ≠ 10 := fun j hj hj10 =>
    Nat.find_min h hj ⟨by omega, by omega, hj10⟩
  generalize Nat.find h = i at hi hlen hnl hmin
  have hi8 : (UInt8.ofNat i).toNat = i := by
    rw [UInt8.toNat_ofNat', Nat.mod_eq_of_lt (by omega)]
  have hsucc8 : (UInt8.ofNat i + 1).toNat = i + 1 := by
    rw [UInt8.toNat_add, hi8]
    exact Nat.mod_eq_of_lt (show i + 1 < 256 by omega)
  have hrun : dataRead len buff (delivered stream (i + 1))
      = some ((filled buff stream (i + 1)).store (i + 1) 0, []) := by
    rw [delivered_succ, dataRead_append buff (by omega) (by omega) hmin, dataReadLoop,
      if_neg (fun hgo => hgo.1 hnl), hi8, hsucc8, filled_store]
  refine ⟨i + 1, _, hrun, ?_⟩
  constructor
  case complete => exact Or.inl hnl
  case first =>
      intro k hk hki hcomplete
      rcases hcomplete with h10 | hfull
      · exact hmin (k - 1) (by omega) h10
      · omega
  case content =>
      intro j hj
      show Function.update (filled buff stream (i + 1)).mem (i + 1) 0 j = stream j
      rw [Function.update_of_ne (by omega)]
      exact if_pos hj
  case terminated => exact Function.update_self _ _ _
  case once =>
      show (List.range (i + 1) ++ [i + 1]).Nodup
      rw [← List.range_succ]
      exact List.nodup_range
  case inside =>
      intro j hj
      have hmem : j ∈ List.range (i + 1 + 1) := by
        rw [List.range_succ]
        exact hj
      have := List.mem_range.mp hmem
      omega

/-- A stream that is framed has a newline in time. -/
theorem newline_of_framed {len : Int} {stream buff : Nat → UInt8}
    (h : Framed len buff stream) :
    ∃ i : Nat, i < 255 ∧ (i : Int) + 1 < len ∧ stream i = 10 := by
  obtain ⟨n, out, hrun, hframed⟩ := h
  by_contra hno
  push Not at hno
  -- The first store and the one behind it are in the buffer.
  have hfirst : [0, 1] <+: out.written := dataReadLoop_written hrun
  have hlen : 1 < len := hframed.inside 1 (hfirst.subset (by simp))
  -- The bytes before the one that does not fit, or that the index cannot count.
  obtain ⟨k, hk, hklen, hlast⟩ : ∃ k : Nat, k < 256 ∧ (k : Int) + 1 ≤ len ∧
      (k = 255 ∨ (k : Int) + 1 = len) :=
    ⟨min 255 (len - 1).toNat, by omega, by omega, by omega⟩
  have hline : ∀ i < k, stream i ≠ 10 := fun i hi => hno i (by omega) (by omega)
  have hkn : k < n := by
    by_contra hle
    obtain ⟨j, rfl⟩ : ∃ j, k = n + j := ⟨k - n, by omega⟩
    have hwait := dataRead_append buff (show n < 256 by omega) (show (n : Int) ≤ len by omega)
      (fun i hi => hline i (by omega)) []
    rw [List.append_nil, hrun] at hwait
    cases hwait
  obtain ⟨j, rfl⟩ : ∃ j, n = k + j := ⟨n - k, by omega⟩
  rw [delivered_add, dataRead_append buff hk (by omega) hline] at hrun
  -- From there on the stores go to `k` and to the index behind it.
  have hwritten := dataReadLoop_written hrun
  have hk8 : (UInt8.ofNat k).toNat = k := by
    rw [UInt8.toNat_ofNat', Nat.mod_eq_of_lt hk]
  have hnext : (UInt8.ofNat k + 1).toNat = (k + 1) % 256 := by
    rw [UInt8.toNat_add, hk8]
    rfl
  rw [hk8, hnext] at hwritten
  by_cases hk255 : k = 255
  · -- The index is 0 again.
    have hnodup : (List.range k ++ [k, (k + 1) % 256]).Nodup :=
      hframed.once.sublist hwritten.sublist
    have hzero : (k + 1) % 256 = 0 := by omega
    exact List.disjoint_of_nodup_append hnodup (List.mem_range.mpr (show 0 < k by omega))
      (by simp [hzero])
  · -- The index is outside.
    have hmem : k + 1 ∈ out.written := hwritten.subset (by
      rw [Nat.mod_eq_of_lt (by omega)]
      simp)
    have := hframed.inside (k + 1) hmem
    omega

/-- **Which streams are framed**: those with a newline among the first 255 bytes, and in front
of the last byte of the buffer. -/
theorem framed_iff (len : Int) (buff stream : Nat → UInt8) :
    Framed len buff stream ↔ ∃ i : Nat, i < 255 ∧ (i : Int) + 1 < len ∧ stream i = 10 :=
  ⟨newline_of_framed, framed_of_newline buff⟩

/-- Noise without a newline is not framed in the buffer of `gps_thread_entry`. -/
theorem not_framed_noise :
    ¬ Framed gpsDeviceRecvBuffLen (fun _ => 0) (fun _ => 0x55) := by
  intro h
  obtain ⟨i, -, -, hnl⟩ := newline_of_framed h
  exact absurd hnl (by decide)

end CarLocator.Gps
