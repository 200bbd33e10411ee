import Mathlib.Data.List.GetD
import Mathlib.Logic.Function.Iterate
import TransportStream.Proofs.Crc

/-!
# Damage in a row

The register takes a message bit by bit, the most significant bit of every byte
first.  Up to 32 bits can be taken at once before it is shifted, so that a burst
of damage no longer than the register reaches it unchanged, and the bits behind
the burst cannot clear it again.
-/

namespace TransportStream

/-!
## The bits of a message
-/

theorem flag_eq_getMsbD (b : UInt8) {i : Nat} (h : i < 8) :
    flag b (7 - i) = b.toBitVec.getMsbD i := by
  have hbit : flag b (7 - i) = b.toNat.testBit (7 - i) := by
    rw [Nat.testBit_eq_decide_div_mod_eq]
    rfl
  rw [hbit, BitVec.getMsbD, decide_eq_true h, Bool.true_and]
  rfl

def bitAt (bytes : Bytes) (i : Nat) : Bool :=
  flag (bytes.getD (i / 8) 0) (7 - i % 8)

def bits (bytes : Bytes) : List Bool :=
  (List.range (8 * bytes.length)).map (bitAt bytes)

theorem bitAt_of_le {bytes : Bytes} {i : Nat} (h : 8 * bytes.length ≤ i) :
    bitAt bytes i = false := by
  have hbehind : bytes.length ≤ i / 8 :=
    (Nat.le_div_iff_mul_le (by decide)).mpr (by lia)
  rw [bitAt, List.getD_eq_default bytes 0 hbehind,
    flag_eq_getMsbD 0 (Nat.mod_lt i (by decide))]
  exact BitVec.getMsbD_zero

theorem bitAt_add (bytes : Bytes) (j : Nat) {i : Nat} (h : i < 8) :
    bitAt bytes (8 * j + i) = (bytes.getD j 0).toBitVec.getMsbD i := by
  have hbyte : (8 * j + i) / 8 = j := by lia
  have hplace : (8 * j + i) % 8 = i := by lia
  rw [bitAt, hbyte, hplace, flag_eq_getMsbD _ h]

theorem bitAt_cons (b : UInt8) (bytes : Bytes) (i : Nat) :
    bitAt (b :: bytes) (8 + i) = bitAt bytes i := by
  have hbyte : (8 + i) / 8 = i / 8 + 1 := by lia
  have hplace : (8 + i) % 8 = i % 8 := by lia
  rw [bitAt, bitAt, hbyte, hplace, List.getD_cons_succ]

theorem bits_cons (b : UInt8) (bytes : Bytes) :
    bits (b :: bytes) = bits [b] ++ bits bytes := by
  have hlength : 8 * (b :: bytes).length = 8 + 8 * bytes.length := by
    rw [List.length_cons, Nat.mul_succ, Nat.add_comm]
  rw [bits, hlength, List.range_add, List.map_append, List.map_map]
  congr 1
  apply List.map_congr_left
  intro i _
  exact bitAt_cons b bytes i

theorem getD_of_clear {bits : List Bool} (h : forall b, b ∈ bits -> b = false)
    (i : Nat) :
    bits.getD i false = false := by
  by_cases hi : i < bits.length
  · rw [List.getD_eq_getElem bits false hi]
    exact h _ (List.getElem_mem hi)
  · exact List.getD_eq_default bits false (Nat.le_of_not_lt hi)

theorem eq_of_bitAt {bytes bytes' : Bytes}
    (hlength : bytes.length = bytes'.length)
    (h : forall i, bitAt bytes i = bitAt bytes' i) : bytes = bytes' := by
  apply List.ext_getElem hlength
  intro j hj hj'
  apply UInt8.toBitVec_inj.mp
  apply BitVec.eq_of_getMsbD_eq
  intro i hi
  have hbit := h (8 * j + i)
  rw [bitAt_add bytes j hi, bitAt_add bytes' j hi,
    List.getD_eq_getElem bytes 0 hj, List.getD_eq_getElem bytes' 0 hj'] at hbit
  exact hbit

namespace Crc

/-!
## Bits in the register
-/

def atTop (b : Bool) : Register :=
  if b then BitVec.twoPow 32 31 else 0#32

def absorbBit (r : Register) (b : Bool) : Register :=
  shift (r ^^^ atTop b)

def aligned : List Bool -> Register
  | [] => 0#32
  | b :: later => atTop b ^^^ aligned later >>> 1

theorem getMsbD_atTop (b : Bool) (i : Nat) :
    (atTop b).getMsbD i = (decide (i = 0) && b) := by
  cases b with
  | false => simp [atTop]
  | true => simp [atTop, BitVec.getMsbD_twoPow]

theorem getMsbD_aligned (bits : List Bool) {i : Nat} (h : i < 32) :
    (aligned bits).getMsbD i = bits.getD i false := by
  induction bits generalizing i with
  | nil => simp [aligned]
  | cons b later ih =>
      rw [aligned, BitVec.getMsbD_xor, BitVec.getMsbD_ushiftRight,
        getMsbD_atTop]
      cases i with
      | zero => simp
      | succ i =>
          rw [Nat.add_sub_cancel, ih (Nat.lt_of_succ_lt h)]
          simp [h]

theorem aligned_eq_zero_iff {bits : List Bool} (h : bits.length ≤ 32) :
    aligned bits = 0#32 ↔ forall b, b ∈ bits -> b = false := by
  constructor
  · intro hzero b hb
    rcases List.mem_iff_getElem.mp hb with ⟨i, hi, rfl⟩
    have hbit := getMsbD_aligned bits (Nat.lt_of_lt_of_le hi h)
    rw [hzero, List.getD_eq_getElem bits false hi] at hbit
    rw [← hbit]
    exact BitVec.getMsbD_zero
  · intro hclear
    apply BitVec.eq_of_getMsbD_eq
    intro i hi
    rw [getMsbD_aligned bits hi, getD_of_clear hclear, BitVec.getMsbD_zero]

theorem getMsbD_placed (b : UInt8) (i : Nat) :
    (placed b 3).getMsbD i = b.toBitVec.getMsbD i := by
  rw [placed, BitVec.getMsbD_shiftLeft, BitVec.getMsbD_setWidth]
  simp

theorem aligned_bits (b : UInt8) : aligned (bits [b]) = placed b 3 := by
  apply BitVec.eq_of_getMsbD_eq
  intro i hi
  rw [getMsbD_aligned _ hi, getMsbD_placed]
  by_cases hbyte : i < 8
  · have hlength : i < (bits [b]).length := hbyte
    have hbit := bitAt_add [b] 0 hbyte
    rw [Nat.mul_zero, Nat.zero_add] at hbit
    rw [List.getD_eq_getElem _ _ hlength]
    simpa [bits] using hbit
  · have hlength : (bits [b]).length ≤ i := Nat.le_of_not_lt hbyte
    rw [List.getD_eq_default _ _ hlength,
      BitVec.getMsbD_of_ge _ _ (Nat.le_of_not_lt hbyte)]

theorem shift_ushiftRight {r : Register} (h : r.getMsbD 31 = false) :
    shift (r >>> 1) = r := by
  have hmsb : (r >>> 1).msb = false := by
    simp [BitVec.msb_ushiftRight]
  rw [shift, hmsb, if_neg Bool.false_ne_true]
  apply BitVec.eq_of_getMsbD_eq
  intro i hi
  rw [BitVec.getMsbD_shiftLeft, BitVec.getMsbD_ushiftRight, Nat.add_sub_cancel]
  by_cases hlast : i = 31
  · subst hlast
    rw [h]
    rfl
  · have hinside : i + 1 < 32 := by lia
    simp [hinside]

/-- Up to 32 bits can be taken into the register at once, before it is
shifted. -/
theorem foldl_absorbBit {bits : List Bool} (h : bits.length ≤ 32)
    (r : Register) :
    bits.foldl absorbBit r = shift^[bits.length] (r ^^^ aligned bits) := by
  induction bits generalizing r with
  | nil => exact (BitVec.xor_zero).symm
  | cons b later ih =>
      have hshort : later.length < 32 := h
      have hlow : (aligned later).getMsbD 31 = false := by
        rw [getMsbD_aligned later (by decide)]
        exact List.getD_eq_default later false (Nat.le_of_lt_succ hshort)
      calc (b :: later).foldl absorbBit r
          = shift^[later.length] (shift (r ^^^ atTop b) ^^^ aligned later) :=
            ih (Nat.le_of_lt hshort) (absorbBit r b)
        _ = shift^[later.length] (shift (r ^^^ atTop b) ^^^
          shift (aligned later >>> 1)) := by
            rw [shift_ushiftRight hlow]
        _ = shift^[later.length] (shift (r ^^^ aligned (b :: later))) := by
            rw [← shift_xor, BitVec.xor_assoc, aligned]

theorem foldl_absorbBit_of_clear {bits : List Bool}
    (h : forall b, b ∈ bits -> b = false) (r : Register) :
    bits.foldl absorbBit r = shift^[bits.length] r := by
  induction bits generalizing r with
  | nil => rfl
  | cons b later ih =>
      have hb := h b List.mem_cons_self
      subst hb
      rw [List.foldl_cons, ih (fun b hb => h b (List.mem_cons_of_mem false hb)),
        absorbBit, atTop, if_neg Bool.false_ne_true, BitVec.xor_zero]
      rfl

theorem iterate_shift_eq_zero_iff {n : Nat} {r : Register} :
    shift^[n] r = 0#32 ↔ r = 0#32 := by
  induction n generalizing r with
  | zero => exact Iff.rfl
  | succ n ih => exact ih.trans shift_eq_zero_iff

theorem update_eq_foldl (r : Register) (message : Bytes) :
    update r message = (bits message).foldl absorbBit r := by
  induction message generalizing r with
  | nil => rfl
  | cons b message ih =>
      have hlength : (bits [b]).length = 8 := rfl
      have hbyte : absorb r b = (bits [b]).foldl absorbBit r := by
        rw [foldl_absorbBit (by rw [hlength]; decide), hlength, aligned_bits,
          absorb_eq]
        rfl
      rw [update_cons, ih, hbyte, bits_cons b message, List.foldl_append]

/-!
## Bursts
-/

theorem absorbBit_xor (r s : Register) (a b : Bool) :
    absorbBit (r ^^^ s) (xor a b) = absorbBit r a ^^^ absorbBit s b := by
  have htop : atTop (xor a b) = atTop a ^^^ atTop b := by
    cases a <;> cases b <;> rfl
  rw [absorbBit, absorbBit, absorbBit, ← shift_xor, htop]
  congr 1
  ac_rfl

theorem foldl_absorbBit_xor {α : Type} (f g : α -> Bool) (places : List α)
    (r s : Register) :
    (places.map fun i => xor (f i) (g i)).foldl absorbBit (r ^^^ s) =
      (places.map f).foldl absorbBit r ^^^
        (places.map g).foldl absorbBit s := by
  induction places generalizing r s with
  | nil => rfl
  | cons i places ih =>
      rw [List.map_cons, List.foldl_cons, absorbBit_xor, ih]
      rfl

/-- Bits that are set within a window of 32 are not cleared by any bits around
them. -/
theorem foldl_absorbBit_eq_zero_iff {bits : List Bool} {start : Nat}
    (h : forall i, bits.getD i false = true -> start ≤ i ∧ i < start + 32) :
    bits.foldl absorbBit 0#32 = 0#32 ↔ forall b, b ∈ bits -> b = false := by
  have hahead : forall b, b ∈ bits.take start -> b = false := by
    intro b hb
    rcases List.mem_take_iff_getElem.mp hb with ⟨i, hi, rfl⟩
    apply Bool.eq_false_iff.mpr
    intro hset
    rw [← List.getD_eq_getElem bits false] at hset
    have hwindow := h i hset
    lia
  have hbehind : forall b, b ∈ bits.drop (start + 32) -> b = false := by
    intro b hb
    rcases List.mem_drop_iff_getElem.mp hb with ⟨i, hi, rfl⟩
    apply Bool.eq_false_iff.mpr
    intro hset
    rw [← List.getD_eq_getElem bits false] at hset
    have hwindow := h (start + 32 + i) hset
    lia
  have hlength : ((bits.drop start).take 32).length ≤ 32 :=
    List.length_take_le 32 _
  have hsplit : bits.take start ++
      ((bits.drop start).take 32 ++ bits.drop (start + 32)) = bits := by
    rw [← List.drop_drop, List.take_append_drop, List.take_append_drop]
  -- Clear bits ahead leave the register empty, and clear bits behind the window
  -- only shift it.
  have hzero : shift^[(bits.take start).length] 0#32 = 0#32 :=
    iterate_shift_eq_zero_iff.mpr rfl
  have hfold : bits.foldl absorbBit 0#32 = 0#32 ↔
      forall b, b ∈ (bits.drop start).take 32 -> b = false := by
    rw [← aligned_eq_zero_iff hlength]
    conv_lhs => rw [← hsplit]
    rw [List.foldl_append, List.foldl_append, foldl_absorbBit_of_clear hahead,
      hzero, foldl_absorbBit_of_clear hbehind, iterate_shift_eq_zero_iff,
      foldl_absorbBit hlength, iterate_shift_eq_zero_iff, BitVec.zero_xor]
  rw [hfold]
  constructor
  · intro hburst b hb
    rw [← hsplit, List.mem_append, List.mem_append] at hb
    rcases hb with hb | hb | hb
    · exact hahead b hb
    · exact hburst b hb
    · exact hbehind b hb
  · intro hclear b hb
    exact hclear b (List.mem_of_mem_drop (List.mem_of_mem_take hb))

def differences (message message' : Bytes) : List Bool :=
  (List.range (8 * message.length)).map fun i =>
    xor (bitAt message i) (bitAt message' i)

theorem getD_differences {message message' : Bytes}
    (h : message.length = message'.length) (i : Nat) :
    (differences message message').getD i false =
      xor (bitAt message i) (bitAt message' i) := by
  by_cases hi : i < (differences message message').length
  · rw [List.getD_eq_getElem _ _ hi]
    simp [differences]
  · rw [List.getD_eq_default _ _ (Nat.le_of_not_lt hi)]
    have hlength : 8 * message.length ≤ i := by
      simpa [differences] using hi
    rw [bitAt_of_le hlength, bitAt_of_le (by rwa [← h])]
    rfl

theorem crc_xor_crc {message message' : Bytes}
    (h : message.length = message'.length) :
    crc message ^^^ crc message' =
      (differences message message').foldl absorbBit 0#32 := by
  have hxor := foldl_absorbBit_xor (bitAt message) (bitAt message')
    (List.range (8 * message.length)) initial initial
  rw [BitVec.xor_self] at hxor
  rw [crc, crc, update_eq_foldl, update_eq_foldl, bits, bits, ← h, ← hxor]
  rfl

/-- Damage in no more than 32 bits in a row changes the checksum. -/
theorem crc_ne_of_burst {message message' : Bytes}
    (hlength : message.length = message'.length) (hne : message ≠ message')
    {start : Nat}
    (h : forall i, bitAt message i ≠ bitAt message' i ->
      start ≤ i ∧ i < start + 32) :
    crc message ≠ crc message' := by
  intro hcrc
  have hwindow : forall i, (differences message message').getD i false = true ->
      start ≤ i ∧ i < start + 32 := by
    intro i hdiffers
    rw [getD_differences hlength] at hdiffers
    exact h i (bne_iff_ne.mp hdiffers)
  have hfold := crc_xor_crc hlength
  rw [hcrc, BitVec.xor_self] at hfold
  have hclear := (foldl_absorbBit_eq_zero_iff hwindow).mp hfold.symm
  apply hne
  apply eq_of_bitAt hlength
  intro i
  have hbit := getD_of_clear hclear i
  rw [getD_differences hlength] at hbit
  simpa using hbit

end Crc
end TransportStream
