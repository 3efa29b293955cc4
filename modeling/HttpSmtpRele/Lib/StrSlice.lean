import Mathlib.Data.String.Basic
import HttpSmtpRele.Lib.RustStr

/-!
# Pieces of a `str`

What `trim` and `trim_matches` leave of a padded text, where `split` cuts a text
that was joined, and slices at a byte offset.  A slice can panic; where its offset
is the length of a prefix it is the rest of the text.
-/

namespace RustStr

variable {p : Char → Bool} {l m r : List Char}

/-! ## Trimming -/

theorem trimChars_pad (hl : ∀ c ∈ l, p c = true) (hr : ∀ c ∈ r, p c = true)
    (hhead : ∀ c ∈ m.head?, p c = false) (hlast : ∀ c ∈ m.getLast?, p c = false) :
    trimChars p (l ++ m ++ r) = m := by
  cases m with
  | nil =>
    rw [List.append_nil, trimChars_eq_nil]
    intro c hc
    exact (List.mem_append.mp hc).elim (hl c) (hr c)
  | cons x m =>
    have hx : p x = false := hhead x rfl
    have hleft : (l ++ (x :: m) ++ r).dropWhile p = (x :: m) ++ r := by
      rw [List.append_assoc, List.dropWhile_append_of_pos hl, List.cons_append,
        List.dropWhile_cons_of_neg (by simp [hx])]
    have hright : (x :: m).reverse.dropWhile p = (x :: m).reverse := by
      cases hrev : (x :: m).reverse with
      | nil => rfl
      | cons y ys =>
        have hy : p y = false := by
          apply hlast
          rw [List.getLast?_eq_head?_reverse, hrev]
          rfl
        exact List.dropWhile_cons_of_neg (by simp [hy])
    unfold trimChars
    rw [hleft, List.reverse_append,
      List.dropWhile_append_of_pos fun c hc => hr c (List.mem_reverse.mp hc), hright,
      List.reverse_reverse]

/-- What has none of the trimmed characters is found between them. -/
theorem trimChars_between (hl : ∀ c ∈ l, p c = true) (hr : ∀ c ∈ r, p c = true)
    (hm : ∀ c ∈ m, p c = false) : trimChars p (l ++ m ++ r) = m :=
  trimChars_pad hl hr (fun c hc => hm c (List.mem_of_mem_head? hc))
    fun c hc => hm c (List.mem_of_getLast? hc)

theorem trimChars_self (hhead : ∀ c ∈ m.head?, p c = false)
    (hlast : ∀ c ∈ m.getLast?, p c = false) : trimChars p m = m := by
  have h := trimChars_pad (l := []) (r := []) (by simp) (by simp) hhead hlast
  rwa [List.nil_append, List.append_nil] at h

theorem trimMatches_around {c : Char} (hl : ∀ x ∈ l, x = c) (hr : ∀ x ∈ r, x = c) (hm : c ∉ m) :
    trimMatches (String.ofList (l ++ m ++ r)) c = String.ofList m := by
  unfold trimMatches
  rw [String.toList_ofList, trimChars_between]
  · exact fun x hx => beq_iff_eq.mpr (hl x hx)
  · exact fun x hx => beq_iff_eq.mpr (hr x hx)
  · exact fun x hx => beq_eq_false_iff_ne.mpr fun heq => hm (heq ▸ hx)

theorem trimMatches_self {c : Char} (hhead : ∀ x ∈ m.head?, x ≠ c)
    (hlast : ∀ x ∈ m.getLast?, x ≠ c) :
    trimMatches (String.ofList m) c = String.ofList m := by
  unfold trimMatches
  rw [String.toList_ofList, trimChars_self]
  · exact fun x hx => beq_eq_false_iff_ne.mpr (hhead x hx)
  · exact fun x hx => beq_eq_false_iff_ne.mpr (hlast x hx)

theorem trimMatches_of_not_mem {c : Char} (h : c ∉ m) :
    trimMatches (String.ofList m) c = String.ofList m :=
  trimMatches_self (fun _ hx heq => h (heq ▸ List.mem_of_mem_head? hx))
    fun _ hx heq => h (heq ▸ List.mem_of_getLast? hx)

/-! ## Splitting -/

theorem split_of_not_mem {cs : List Char} {c : Char} (h : c ∉ cs) :
    split (String.ofList cs) c = [String.ofList cs] := by
  unfold split
  rw [String.toList_ofList, List.splitOn_eq_singleton h]
  rfl

theorem head?_split {cs rest : List Char} {c : Char} (h : c ∉ cs)
    (hrest : rest = [] ∨ ∃ tail, rest = c :: tail) :
    (split (String.ofList (cs ++ rest)) c).head? = some (String.ofList cs) := by
  rcases hrest with rfl | ⟨tail, rfl⟩
  · rw [List.append_nil, split_of_not_mem h]
    rfl
  · unfold split
    rw [String.toList_ofList, List.splitOn_append_cons_self_of_not_mem h]
    rfl

theorem split_intercalate {pieces : List (List Char)} {c : Char} (h : ∀ l ∈ pieces, c ∉ l)
    (hne : pieces ≠ []) :
    split (String.ofList ([c].intercalate pieces)) c = pieces.map String.ofList := by
  unfold split
  rw [String.toList_ofList, List.splitOn_intercalate c h hne]

theorem mem_intercalate {α : Type} {sep c : α} {pieces : List (List α)}
    (h : c ∈ [sep].intercalate pieces) : c = sep ∨ ∃ piece ∈ pieces, c ∈ piece := by
  induction pieces with
  | nil => cases h
  | cons piece pieces ih =>
    cases pieces with
    | nil =>
      have hmem : c ∈ piece := by simpa [List.intercalate] using h
      exact Or.inr ⟨piece, List.mem_cons_self, hmem⟩
    | cons next rest =>
      have hcases : c ∈ piece ∨ c = sep ∨ c ∈ [sep].intercalate (next :: rest) := by
        simpa [List.intercalate] using h
      rcases hcases with hpiece | hsep | hrest
      · exact Or.inr ⟨piece, List.mem_cons_self, hpiece⟩
      · exact Or.inl hsep
      · rcases ih hrest with hsep | ⟨p, hp, hc⟩
        · exact Or.inl hsep
        · exact Or.inr ⟨p, List.mem_cons_of_mem _ hp, hc⟩

/-! ## Slices -/

def sliceFromChars : List Char → Nat → Option (List Char)
  | cs, 0 => some cs
  | [], _ + 1 => none
  | c :: cs, n + 1 => if c.utf8Size ≤ n + 1 then sliceFromChars cs (n + 1 - c.utf8Size) else none

/-- `&s[start..]` at a byte offset; `none` is the panic past the end or inside a character. -/
def sliceFrom (s : String) (start : Nat) : Option String :=
  (sliceFromChars s.toList start).map String.ofList

theorem sliceFromChars_append (before rest : List Char) :
    sliceFromChars (before ++ rest) (String.utf8Len before) = some rest := by
  induction before with
  | nil => cases rest <;> rfl
  | cons c before ih =>
    have hpos : 0 < c.utf8Size := Char.utf8Size_pos c
    have hlen : String.utf8Len (c :: before) = String.utf8Len before + c.utf8Size := rfl
    obtain ⟨n, hn⟩ : ∃ n, String.utf8Len before + c.utf8Size = n + 1 :=
      Nat.exists_eq_add_one.mpr (by omega)
    have hstep : sliceFromChars (c :: (before ++ rest)) (n + 1) =
        if c.utf8Size ≤ n + 1 then sliceFromChars (before ++ rest) (n + 1 - c.utf8Size)
        else none := rfl
    rw [List.cons_append, hlen, hn, hstep, if_pos (by omega), ← hn, Nat.add_sub_cancel]
    exact ih

theorem utf8Size_ascii {c : Char} (h : c.toNat < 128) : c.utf8Size = 1 := by
  have hval : c.val.toNat ≤ 127 := Nat.le_of_lt_succ h
  exact if_pos (UInt32.le_iff_toNat_le.mpr hval)

theorem utf8Size_toLower (c : Char) : c.toLower.utf8Size = c.utf8Size := by
  have hlower := toNat_toLower c
  split at hlower
  · have hc : c.toNat < 128 := by omega
    have hlow : c.toLower.toNat < 128 := by omega
    rw [utf8Size_ascii hc, utf8Size_ascii hlow]
  · rw [Char.toNat_inj.mp hlower]

theorem utf8Len_map_toLower (cs : List Char) :
    String.utf8Len (cs.map Char.toLower) = String.utf8Len cs := by
  induction cs with
  | nil => rfl
  | cons c cs ih =>
    show String.utf8Len (cs.map Char.toLower) + c.toLower.utf8Size = _
    rw [ih, utf8Size_toLower]
    rfl

end RustStr
