import Mathlib.Data.List.Basic
import Mathlib.Data.Nat.Digits.Defs
import HttpSmtpRele.Lib.StrSlice

/-!
# Numbers in separated fields

`10.0.0.7` and `2001:db8:1:2:3:4:5:6` are written alike: a number is cut into
fields of one size, and each of them is written in a base, without leading zeros.
What is read has as many fields as are written, and reading gives back the number.
-/

namespace IpText

/-- How an address is written, with every field. -/
structure Layout where
  separator : Char
  base : Nat
  maxDigits : Nat
  /-- the numbers of a field are below it -/
  limit : Nat
  count : Nat
  leadingZeros : Bool

def dotted : Layout := ⟨'.', 10, 3, 256, 4, false⟩

def colons : Layout := ⟨':', 16, 4, 65536, 8, true⟩

def hexValue (c : Char) : Option Nat :=
  if 48 ≤ c.toNat ∧ c.toNat ≤ 57 then some (c.toNat - 48)
  else if 97 ≤ c.toNat ∧ c.toNat ≤ 102 then some (c.toNat - 87)
  else if 65 ≤ c.toNat ∧ c.toNat ≤ 70 then some (c.toNat - 55)
  else none

/-- `char::to_digit`, for bases up to sixteen. -/
def digitValue (base : Nat) (c : Char) : Option Nat := (hexValue c).filter (· < base)

def readDigits (base : Nat) (cs : List Char) : Option Nat :=
  cs.foldlM (fun acc c => (digitValue base c).map (acc * base + ·)) 0

namespace Layout

variable (L : Layout)

def readField (cs : List Char) : Option Nat :=
  if cs = [] ∨ L.maxDigits < cs.length ∨
      (L.leadingZeros = false ∧ cs.head? = some '0' ∧ 1 < cs.length) then none
  else (readDigits L.base cs).filter (· < L.limit)

def readFields (fields : List (List Char)) : Option Nat :=
  fields.foldlM (fun acc cs => (L.readField cs).map (acc * L.limit + ·)) 0

def read (cs : List Char) : Option Nat :=
  if (cs.splitOn L.separator).length = L.count then L.readFields (cs.splitOn L.separator) else none

/-- The last `k` fields of a number. -/
def fields : Nat → Nat → List Nat
  | 0, _ => []
  | k + 1, n => fields k (n / L.limit) ++ [n % L.limit]

def write (n : Nat) : List Char :=
  [L.separator].intercalate ((L.fields L.count n).map (Nat.toDigits L.base))

/-- Each number of a field is read from its digits. -/
def ReadsFields : Prop := ∀ n < L.limit, L.readField (Nat.toDigits L.base n) = some n

end Layout

/-! ## Digits -/

theorem hexValue_ranges {c : Char} {n : Nat} (h : hexValue c = some n) :
    (48 ≤ c.toNat ∧ c.toNat ≤ 57) ∨ (97 ≤ c.toNat ∧ c.toNat ≤ 102) ∨
      (65 ≤ c.toNat ∧ c.toNat ≤ 70) := by
  unfold hexValue at h
  by_contra hnot
  rw [not_or, not_or] at hnot
  rw [if_neg hnot.1, if_neg hnot.2.1, if_neg hnot.2.2] at h
  cases h

/-- A digit of a base is one of every greater base. -/
theorem isSome_digitValue_mono {base base' : Nat} (hle : base ≤ base') {c : Char}
    (h : (digitValue base c).isSome = true) : (digitValue base' c).isSome = true := by
  obtain ⟨v, hv⟩ := Option.isSome_iff_exists.mp h
  obtain ⟨hhex, hlt⟩ := Option.filter_eq_some_iff.mp hv
  have hlt' : v < base' := Nat.lt_of_lt_of_le (of_decide_eq_true hlt) hle
  unfold digitValue
  rw [hhex, Option.filter_some, if_pos (decide_eq_true hlt')]
  rfl

theorem digitValue_digitChar {base d : Nat} (hd : d < base) (hbase : base ≤ 16) :
    digitValue base d.digitChar = some d := by
  have hall : ∀ b : Fin 17, ∀ d : Fin 16, d.val < b.val →
      digitValue b.val d.val.digitChar = some d.val := by decide
  exact hall ⟨base, by omega⟩ ⟨d, by omega⟩ hd

theorem readDigits_toDigits {base : Nat} (hone : 1 < base) (hbase : base ≤ 16) (n : Nat) :
    readDigits base (Nat.toDigits base n) = some n := by
  induction n using Nat.strongRecOn with
  | ind n ih =>
    rw [Nat.toDigits_eq_if hone]
    by_cases hlt : n < base
    · rw [if_pos hlt]
      simp [readDigits, digitValue_digitChar hlt hbase]
    · have hquot : n / base < n := Nat.div_lt_self (by omega) hone
      have hmod : n % base < base := Nat.mod_lt _ (by omega)
      have hlast := ih (n / base) hquot
      unfold readDigits at hlast ⊢
      rw [if_neg hlt, List.foldlM_append, hlast]
      simp [digitValue_digitChar hmod hbase, Nat.div_add_mod']

/-- Only digits are read. -/
theorem isSome_of_readDigits {base n : Nat} {cs : List Char} (h : readDigits base cs = some n) :
    ∀ c ∈ cs, (digitValue base c).isSome = true := by
  unfold readDigits at h
  generalize 0 = acc at h
  induction cs generalizing acc with
  | nil => simp
  | cons c cs ih =>
    rw [List.foldlM_cons] at h
    obtain ⟨acc', hc, hrest⟩ := Option.bind_eq_some_iff.mp h
    obtain ⟨v, hv, -⟩ := Option.map_eq_some_iff.mp hc
    rw [List.forall_mem_cons, hv]
    exact ⟨rfl, ih acc' hrest⟩

/-! ## Fields -/

namespace Layout

variable {L : Layout}

theorem dotted_readsFields : dotted.ReadsFields := by
  have hall : ∀ n : Fin 256, dotted.readField (Nat.toDigits 10 n) = some n.val := by
    decide +kernel
  intro n hn
  exact hall ⟨n, hn⟩

theorem colons_readsFields : colons.ReadsFields := by
  intro n hn
  have hlen : (Nat.toDigits 16 n).length ≤ 4 :=
    (Nat.length_toDigits_le_iff (by decide) (by decide)).mpr hn
  have hshape : ¬(Nat.toDigits colons.base n = [] ∨
      colons.maxDigits < (Nat.toDigits colons.base n).length ∨
      (colons.leadingZeros = false ∧ (Nat.toDigits colons.base n).head? = some '0' ∧
        1 < (Nat.toDigits colons.base n).length)) := by
    rintro (hnil | hlong | ⟨hzeros, -⟩)
    · exact Nat.toDigits_ne_nil hnil
    · exact absurd hlen (Nat.not_le.mpr hlong)
    · cases hzeros
  have hdigits : readDigits colons.base (Nat.toDigits colons.base n) = some n :=
    readDigits_toDigits (by decide) (by decide) n
  unfold readField
  rw [if_neg hshape, hdigits, Option.filter_some, if_pos]
  exact decide_eq_true hn

theorem length_fields (k n : Nat) : (L.fields k n).length = k := by
  induction k generalizing n with
  | zero => rfl
  | succ k ih =>
    show (L.fields k (n / L.limit) ++ _).length = k + 1
    rw [List.length_append, ih]
    rfl

theorem readFields_fields (hL : L.ReadsFields) (hpos : 0 < L.limit) {k n : Nat}
    (hn : n < L.limit ^ k) :
    L.readFields ((L.fields k n).map (Nat.toDigits L.base)) = some n := by
  induction k generalizing n with
  | zero =>
    have hzero : n = 0 := by
      rw [Nat.pow_zero] at hn
      omega
    rw [hzero]
    rfl
  | succ k ih =>
    have hquot : n / L.limit < L.limit ^ k := by
      rw [Nat.div_lt_iff_lt_mul hpos, ← Nat.pow_succ]
      exact hn
    have hinit := ih hquot
    show L.readFields ((L.fields k (n / L.limit) ++ [n % L.limit]).map _) = some n
    unfold readFields at hinit ⊢
    rw [List.map_append, List.foldlM_append, hinit]
    simp [hL _ (Nat.mod_lt _ hpos), Nat.div_add_mod']

/-- The separator is not a digit of a written field. -/
def SeparatorApart (L : Layout) : Prop := digitValue L.base L.separator = none

theorem separator_not_mem (hL : L.ReadsFields) (hsep : L.SeparatorApart) {n : Nat}
    (hn : n < L.limit) : L.separator ∉ Nat.toDigits L.base n := by
  intro hmem
  have hread := hL n hn
  unfold readField at hread
  split at hread
  · cases hread
  · obtain ⟨hdigits, -⟩ := Option.filter_eq_some_iff.mp hread
    have hsome := isSome_of_readDigits hdigits _ hmem
    rw [hsep] at hsome
    cases hsome

theorem lt_limit_of_mem_fields (hpos : 0 < L.limit) {k n m : Nat} (hm : m ∈ L.fields k n) :
    m < L.limit := by
  induction k generalizing n with
  | zero => cases hm
  | succ k ih =>
    rcases List.mem_append.mp hm with hinit | hlast
    · exact ih hinit
    · rw [List.mem_singleton.mp hlast]
      exact Nat.mod_lt _ hpos

theorem read_write (hL : L.ReadsFields) (hsep : L.SeparatorApart) (hpos : 0 < L.limit)
    (hcount : 0 < L.count) {n : Nat} (hn : n < L.limit ^ L.count) :
    L.read (L.write n) = some n := by
  have hlen : ((L.fields L.count n).map (Nat.toDigits L.base)).length = L.count := by
    rw [List.length_map, length_fields]
  have hsplit : (L.write n).splitOn L.separator =
      (L.fields L.count n).map (Nat.toDigits L.base) := by
    apply List.splitOn_intercalate
    · intro l hl
      obtain ⟨m, hm, rfl⟩ := List.mem_map.mp hl
      exact separator_not_mem hL hsep (lt_limit_of_mem_fields hpos hm)
    · intro hnil
      rw [hnil] at hlen
      exact absurd hlen (Nat.ne_of_lt hcount)
  unfold read
  rw [hsplit, if_pos hlen]
  exact readFields_fields hL hpos hn

/-! ## What is read -/

theorem isSome_of_readFields {pieces : List (List Char)} {n : Nat}
    (h : L.readFields pieces = some n) :
    ∀ piece ∈ pieces, ∀ c ∈ piece, (digitValue L.base c).isSome = true := by
  unfold readFields at h
  generalize 0 = acc at h
  induction pieces generalizing acc with
  | nil => simp
  | cons piece pieces ih =>
    rw [List.foldlM_cons] at h
    obtain ⟨acc', hpiece, hrest⟩ := Option.bind_eq_some_iff.mp h
    obtain ⟨v, hv, -⟩ := Option.map_eq_some_iff.mp hpiece
    rw [List.forall_mem_cons]
    refine ⟨?_, ih acc' hrest⟩
    unfold readField at hv
    split at hv
    · cases hv
    · exact isSome_of_readDigits (Option.filter_eq_some_iff.mp hv).1

/-- A text that is read has digits and separators, and no other characters. -/
theorem chars_of_read {cs : List Char} {n : Nat} (h : L.read cs = some n) :
    ∀ c ∈ cs, c = L.separator ∨ (digitValue L.base c).isSome = true := by
  unfold read at h
  split at h
  · intro c hc
    have hjoin : [L.separator].intercalate (cs.splitOn L.separator) = cs :=
      List.intercalate_splitOn L.separator
    rw [← hjoin] at hc
    rcases RustStr.mem_intercalate hc with hsep | ⟨piece, hpiece, hmem⟩
    · exact Or.inl hsep
    · exact Or.inr (isSome_of_readFields h piece hpiece c hmem)
  · cases h

theorem separator_of_read {cs : List Char} {n : Nat} (hcount : L.count ≠ 1)
    (h : L.read cs = some n) : L.separator ∈ cs := by
  by_contra hnot
  unfold read at h
  rw [List.splitOn_eq_singleton hnot, if_neg] at h
  · cases h
  · intro hone
    exact hcount hone.symm

end Layout

end IpText
