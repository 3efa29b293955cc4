import Mathlib.Data.List.Lex
import Mathlib.Data.Nat.Digits.Defs
import HttpSmtpRele.Lib.StrSlice

/-!
# Texts that sort as what they stand for

`Before r xs ys`: at the first place where the lists differ both have an element,
and these two are related by `r`.  Whatever follows that place does not matter,
so `Before` is kept by appending anything on the right, and a text that is put
together field by field sorts as the fields do, in that order.

Digits of one width sort as their numbers.  So do groups of digits without the
zero groups at the end, as long as what follows them sorts below the digits.
-/

namespace TextOrder

variable {α β : Type} {r : α → α → Prop} {xs ys : List α}

def Before (r : α → α → Prop) (xs ys : List α) : Prop :=
  ∃ p x y us vs, xs = p ++ x :: us ∧ ys = p ++ y :: vs ∧ r x y

namespace Before

theorem head {x y : α} (h : r x y) (us vs : List α) : Before r (x :: us) (y :: vs) :=
  ⟨[], x, y, us, vs, rfl, rfl, h⟩

theorem append_left (p : List α) (h : Before r xs ys) : Before r (p ++ xs) (p ++ ys) := by
  obtain ⟨q, x, y, us, vs, rfl, rfl, hxy⟩ := h
  exact ⟨p ++ q, x, y, us, vs, (List.append_assoc ..).symm, (List.append_assoc ..).symm, hxy⟩

theorem cons (z : α) (h : Before r xs ys) : Before r (z :: xs) (z :: ys) := h.append_left [z]

theorem append_right (h : Before r xs ys) (us vs : List α) : Before r (xs ++ us) (ys ++ vs) := by
  obtain ⟨p, x, y, us', vs', rfl, rfl, hxy⟩ := h
  exact ⟨p, x, y, us' ++ us, vs' ++ vs, List.append_assoc .., List.append_assoc .., hxy⟩

theorem flatMap {s : β → β → Prop} {f : α → List β} (hf : ∀ x y, r x y → Before s (f x) (f y))
    (h : Before r xs ys) : Before s (xs.flatMap f) (ys.flatMap f) := by
  obtain ⟨p, x, y, us, vs, rfl, rfl, hxy⟩ := h
  rw [List.flatMap_append, List.flatMap_append, List.flatMap_cons, List.flatMap_cons]
  exact ((hf x y hxy).append_right _ _).append_left _

theorem flip {s : α → α → Prop} (hs : ∀ x y, r x y → s y x) (h : Before r xs ys) :
    Before s ys xs := by
  obtain ⟨p, x, y, us, vs, rfl, rfl, hxy⟩ := h
  exact ⟨p, y, x, vs, us, rfl, rfl, hs x y hxy⟩

theorem lt [LT α] (hr : ∀ x y, r x y → x < y) (h : Before r xs ys) : xs < ys := by
  obtain ⟨p, x, y, us, vs, rfl, rfl, hxy⟩ := h
  induction p with
  | nil => exact List.Lex.rel (hr x y hxy)
  | cons z p ih => exact List.Lex.cons ih

theorem compareLex {cmp : α → α → Ordering} {o : Ordering} (hrefl : ∀ x, cmp x x = .eq)
    (ho : o ≠ .eq) (hr : ∀ x y, r x y → cmp x y = o) (h : Before r xs ys) :
    xs.compareLex cmp ys = o := by
  obtain ⟨p, x, y, us, vs, rfl, rfl, hxy⟩ := h
  induction p with
  | nil =>
    show List.compareLex cmp (x :: us) (y :: vs) = o
    rw [List.compareLex_cons_cons, hr x y hxy]
    cases o with
    | eq => exact absurd rfl ho
    | lt => rfl
    | gt => rfl
  | cons z p ih =>
    show List.compareLex cmp (z :: (p ++ x :: us)) (z :: (p ++ y :: vs)) = o
    rw [List.compareLex_cons_cons, hrefl]
    exact ih

end Before

theorem compareLex_self {cmp : α → α → Ordering} (hrefl : ∀ x, cmp x x = .eq) (xs : List α) :
    xs.compareLex cmp xs = .eq := by
  induction xs with
  | nil => exact List.compareLex_nil_nil
  | cons x xs ih =>
    rw [List.compareLex_cons_cons, hrefl]
    exact ih

/-! ## Texts and their bytes -/

/-- The byte order of UTF-8 is plain to see for two ASCII characters. -/
def AsciiLt (x y : Char) : Prop := x.toNat < y.toNat ∧ y.toNat < 128

instance (x y : Char) : Decidable (AsciiLt x y) :=
  inferInstanceAs (Decidable (x.toNat < y.toNat ∧ y.toNat < 128))

def utf8 (s : String) : List UInt8 := s.toByteArray.data.toList

/-- The first byte that differs decides, then the length. -/
def compareBytes (s t : String) : Ordering :=
  (utf8 s).compareLex (fun x y => compareOfLessAndEq x y) (utf8 t)

theorem utf8_eq (s : String) : utf8 s = s.toList.flatMap String.utf8EncodeChar := by
  unfold utf8
  rw [← String.utf8Encode_toList]
  exact List.toList_data_toByteArray

theorem utf8EncodeChar_ascii {c : Char} (h : c.toNat < 128) :
    String.utf8EncodeChar c = [c.val.toUInt8] :=
  String.utf8EncodeChar_eq_singleton (RustStr.utf8Size_ascii h)

theorem encode_before {x y : Char} (h : AsciiLt x y) :
    Before (· < ·) (String.utf8EncodeChar x) (String.utf8EncodeChar y) := by
  obtain ⟨hlt, hy⟩ := h
  have hx : x.toNat < 128 := Nat.lt_trans hlt hy
  rw [utf8EncodeChar_ascii hx, utf8EncodeChar_ascii hy]
  apply Before.head
  have hx' : x.val.toNat % 256 = x.toNat := Nat.mod_eq_of_lt (Nat.lt_trans hx (by decide))
  have hy' : y.val.toNat % 256 = y.toNat := Nat.mod_eq_of_lt (Nat.lt_trans hy (by decide))
  rw [UInt8.lt_iff_toNat_lt, UInt32.toNat_toUInt8, UInt32.toNat_toUInt8]
  show x.val.toNat % 256 < y.val.toNat % 256
  omega

theorem Before.string_lt {s t : String} (h : Before AsciiLt s.toList t.toList) : s < t :=
  h.lt fun _ _ hxy => Char.lt_def.mpr (UInt32.lt_iff_toNat_lt.mpr hxy.1)

theorem compareByte_self (x : UInt8) : compareOfLessAndEq x x = .eq := by
  unfold compareOfLessAndEq
  rw [if_neg (UInt8.lt_irrefl x), if_pos rfl]

theorem compareBytes_self (s : String) : compareBytes s s = .eq :=
  compareLex_self compareByte_self _

theorem Before.bytes {s t : String} (h : Before AsciiLt s.toList t.toList) :
    Before (· < ·) (utf8 s) (utf8 t) := by
  rw [utf8_eq, utf8_eq]
  exact h.flatMap (f := String.utf8EncodeChar) fun _ _ => encode_before

theorem Before.compareBytes_lt {s t : String} (h : Before AsciiLt s.toList t.toList) :
    compareBytes s t = .lt := by
  apply h.bytes.compareLex compareByte_self (by decide)
  intro x y hxy
  exact if_pos hxy

theorem Before.compareBytes_gt {s t : String} (h : Before AsciiLt s.toList t.toList) :
    compareBytes t s = .gt := by
  have hflip : Before (fun x y : UInt8 => y < x) (utf8 t) (utf8 s) := h.bytes.flip fun _ _ => id
  apply hflip.compareLex compareByte_self (by decide)
  intro x y hyx
  unfold compareOfLessAndEq
  rw [if_neg (UInt8.lt_asymm hyx), if_neg (UInt8.ne_of_lt hyx).symm]

/-! ## Digits -/

/-- The last `w` decimal digits of `n`. -/
def digits : Nat → Nat → List Char
  | 0, _ => []
  | w + 1, n => digits w (n / 10) ++ [(n % 10).digitChar]

theorem digitChar_asciiLt {a b : Nat} (h : a < b) (hb : b < 10) :
    AsciiLt a.digitChar b.digitChar := by
  have hx := Nat.toNat_digitChar_of_lt_ten (Nat.lt_trans h hb)
  have hy := Nat.toNat_digitChar_of_lt_ten hb
  constructor <;> omega

theorem digits_before {w m n : Nat} (h : m < n) (hn : n < 10 ^ w) :
    Before AsciiLt (digits w m) (digits w n) := by
  induction w generalizing m n with
  | zero => omega
  | succ w ih =>
    have hpow : 10 ^ (w + 1) = 10 ^ w * 10 := Nat.pow_succ ..
    show Before AsciiLt (digits w (m / 10) ++ _) (digits w (n / 10) ++ _)
    by_cases hq : m / 10 < n / 10
    · exact (ih hq (by omega)).append_right _ _
    · have hsame : m / 10 = n / 10 := by omega
      rw [hsame]
      exact (Before.head (digitChar_asciiLt (by omega) (by omega)) _ _).append_left _

/-- A field of digits decides, and what follows it where the numbers are the same. -/
theorem digits_field_before {w m n : Nat} {xs ys : List Char} (hn : n < 10 ^ w)
    (h : m < n ∨ m = n ∧ Before AsciiLt xs ys) :
    Before AsciiLt (digits w m ++ xs) (digits w n ++ ys) := by
  rcases h with hlt | ⟨rfl, hrest⟩
  · exact (digits_before hlt hn).append_right _ _
  · exact hrest.append_left _

theorem digits_add (w k n : Nat) :
    digits (w + k) n = digits w (n / 10 ^ k) ++ digits k (n % 10 ^ k) := by
  induction k generalizing n with
  | zero => simp [digits]
  | succ k ih =>
    have hquot : n / 10 / 10 ^ k = n / 10 ^ (k + 1) := by
      rw [Nat.div_div_eq_div_mul, Nat.pow_succ']
    have hrest : n / 10 % 10 ^ k = n % 10 ^ (k + 1) / 10 := by
      rw [Nat.pow_succ', Nat.mod_mul_right_div_self]
    have hlast : n % 10 = n % 10 ^ (k + 1) % 10 := by
      rw [Nat.pow_succ', Nat.mod_mul_right_mod]
    show digits (w + k) (n / 10) ++ [(n % 10).digitChar] = _
    rw [ih, hquot, hrest, hlast, List.append_assoc]
    rfl

theorem digits_succ_head (w n : Nat) : ∃ d < 10, ∃ cs, digits (w + 1) n = d.digitChar :: cs := by
  induction w generalizing n with
  | zero => exact ⟨n % 10, by omega, [], rfl⟩
  | succ w ih =>
    obtain ⟨d, hd, cs, hcs⟩ := ih (n / 10)
    refine ⟨d, hd, cs ++ [(n % 10).digitChar], ?_⟩
    show digits (w + 1) (n / 10) ++ _ = _
    rw [hcs]
    rfl

/-! ## Groups of three digits -/

/-- `k` groups of three digits, without the groups at the end that are zero. -/
def groups : Nat → Nat → List Char
  | 0, _ => []
  | k + 1, n => if n = 0 then [] else digits 3 (n / 1000 ^ k) ++ groups k (n % 1000 ^ k)

theorem groups_zero (k : Nat) : groups k 0 = [] := by
  cases k with
  | zero => rfl
  | succ k => exact if_pos rfl

theorem groups_succ {k n : Nat} (h : n ≠ 0) :
    groups (k + 1) n = digits 3 (n / 1000 ^ k) ++ groups k (n % 1000 ^ k) :=
  if_neg h

/-- Where one number has no more groups the comparison falls between what follows,
`c`, and a digit of the other. -/
theorem groups_before {k m n : Nat} {c : Char} (hc : c.toNat < 48) (cs : List Char)
    (h : m < n) (hn : n < 1000 ^ k) :
    Before AsciiLt (groups k m ++ c :: cs) (groups k n ++ c :: cs) := by
  induction k generalizing m n with
  | zero => omega
  | succ k ih =>
    have hpow : 1000 ^ (k + 1) = 1000 ^ k * 1000 := Nat.pow_succ ..
    have hpos : 0 < 1000 ^ k := Nat.pow_pos (by decide)
    have hn0 : n ≠ 0 := by omega
    rw [groups_succ hn0]
    by_cases hm0 : m = 0
    · obtain ⟨d, hd, ds, hds⟩ := digits_succ_head 2 (n / 1000 ^ k)
      have hdigit := Nat.toNat_digitChar_of_lt_ten hd
      rw [hm0, groups_zero, hds]
      exact Before.head ⟨by omega, by omega⟩ _ _
    · rw [groups_succ hm0, List.append_assoc, List.append_assoc]
      by_cases hq : m / 1000 ^ k < n / 1000 ^ k
      · have hfit : n / 1000 ^ k < 10 ^ 3 := by
          rw [Nat.div_lt_iff_lt_mul hpos]
          omega
        exact (digits_before hq hfit).append_right _ _
      · have hle : m / 1000 ^ k ≤ n / 1000 ^ k := Nat.div_le_div_right (Nat.le_of_lt h)
        have hsame : m / 1000 ^ k = n / 1000 ^ k := by omega
        have hmod : m % 1000 ^ k < n % 1000 ^ k := by
          have hdm := Nat.div_add_mod m (1000 ^ k)
          have hdn := Nat.div_add_mod n (1000 ^ k)
          rw [hsame] at hdm
          omega
        rw [hsame]
        exact (ih hmod (Nat.mod_lt _ hpos)).append_left _

end TextOrder
