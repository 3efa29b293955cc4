import Mathlib.Data.List.Infix
import Mathlib.Data.List.TakeWhile

/-!
# `str` methods of the Rust standard library

A Rust `str` is a Lean `String`: `len()` is `utf8ByteSize`, `chars().count()` is
`length`.  The methods below are the ones Lean's `String` lacks, or has with
another meaning (`trim` and `to_lowercase` are Unicode-aware in Rust).

The Unicode tables behind `to_lowercase` belong to the toolchain the program is
built with, so they are the parameter `CaseTable`; the treatment of the final
sigma, which depends on the neighbouring characters, is the library's code.
-/

namespace RustStr

def startsWith (s pattern : String) : Bool := pattern.toList.isPrefixOf s.toList

def stripPrefix (s pattern : String) : Option String :=
  if startsWith s pattern then some (String.ofList (s.toList.drop pattern.length)) else none

theorem stripPrefix_eq_some {s pattern rest : String} :
    stripPrefix s pattern = some rest ↔ s = pattern ++ rest := by
  unfold stripPrefix startsWith
  rw [← String.toList_inj, String.toList_append, ← String.length_toList]
  constructor
  · intro h
    split at h
    · rename_i hstart
      obtain ⟨tail, htail⟩ := List.isPrefixOf_iff_prefix.mp hstart
      obtain rfl := Option.some.inj h
      rw [← htail]
      simp
    · cases h
  · intro h
    rw [if_pos (List.isPrefixOf_iff_prefix.mpr ⟨rest.toList, h.symm⟩), h]
    simp

def containsChar (s : String) (c : Char) : Bool := s.toList.contains c

def containsStr (s pattern : String) : Bool := decide (pattern.toList <:+: s.toList)

/-- A pattern is not found to begin in a text that lacks its first character. -/
theorem infix_append_iff {c : Char} {rest before l : List Char} (h : c ∉ before) :
    c :: rest <:+: before ++ l ↔ c :: rest <:+: l := by
  induction before with
  | nil => rw [List.nil_append]
  | cons x before ih =>
    rw [List.mem_cons, not_or] at h
    rw [List.cons_append, List.infix_cons_iff, ih h.2]
    constructor
    · rintro (hstart | hlater)
      · exact absurd (List.cons_prefix_cons.mp hstart).1 h.1
      · exact hlater
    · exact Or.inr

theorem containsStr_append {before s pattern : String} {c : Char} {rest : List Char}
    (hpattern : pattern.toList = c :: rest) (h : c ∉ before.toList) :
    containsStr (before ++ s) pattern = containsStr s pattern := by
  unfold containsStr
  rw [String.toList_append, hpattern, decide_eq_decide]
  exact infix_append_iff h

/-- `split(c)`: the pieces between the occurrences of `c`, at least one. -/
def split (s : String) (c : Char) : List String := (s.toList.splitOn c).map String.ofList

def rsplitOnceChars (c : Char) : List Char → Option (List Char × List Char)
  | [] => none
  | x :: xs =>
    match rsplitOnceChars c xs with
    | some (before, after) => some (x :: before, after)
    | none => if x = c then some ([], xs) else none

/-- `rsplit_once(c)`: the text before and after the last `c`. -/
def rsplitOnce (s : String) (c : Char) : Option (String × String) :=
  (rsplitOnceChars c s.toList).map fun p => (String.ofList p.1, String.ofList p.2)

/-- `s.rfind(c).map(|i| &s[i + 1..])`: the text after the last `c` (of one byte). -/
def afterLast (s : String) (c : Char) : Option String := (rsplitOnce s c).map Prod.snd

theorem rsplitOnceChars_eq_none {c : Char} {l : List Char} :
    rsplitOnceChars c l = none ↔ c ∉ l := by
  induction l with
  | nil => simp [rsplitOnceChars]
  | cons x xs ih =>
    rw [rsplitOnceChars, List.mem_cons, not_or, ← ih]
    cases rsplitOnceChars c xs with
    | some p => simp
    | none => simp [eq_comm]

theorem exists_rsplitOnce {s : String} {c : Char} (h : containsChar s c = true) :
    ∃ before after, rsplitOnce s c = some (before, after) := by
  unfold rsplitOnce
  cases hsplit : rsplitOnceChars c s.toList with
  | some p => exact ⟨_, _, rfl⟩
  | none => exact absurd (List.contains_iff_mem.mp h) (rsplitOnceChars_eq_none.mp hsplit)

/-! ## ASCII case -/

/-- `to_ascii_lowercase`; `Char.toLower` changes ASCII letters only. -/
def toAsciiLowercase (s : String) : String := String.ofList (s.toList.map Char.toLower)

def eqIgnoreAsciiCase (a b : String) : Bool :=
  decide (a.toList.map Char.toLower = b.toList.map Char.toLower)

theorem eqIgnoreAsciiCase_iff {a b : String} :
    eqIgnoreAsciiCase a b = true ↔ a.toList.map Char.toLower = b.toList.map Char.toLower :=
  decide_eq_true_iff

/-- What is equal up to ASCII case is equal to the same texts. -/
theorem eqIgnoreAsciiCase_congr {a b : String} (h : eqIgnoreAsciiCase a b = true) (x : String) :
    eqIgnoreAsciiCase x a = eqIgnoreAsciiCase x b := by
  unfold eqIgnoreAsciiCase
  rw [eqIgnoreAsciiCase_iff.mp h]

theorem toNat_toLower (c : Char) :
    c.toLower.toNat = if 65 ≤ c.toNat ∧ c.toNat ≤ 90 then c.toNat + 32 else c.toNat := by
  have hval : c.val.toNat = c.toNat := rfl
  unfold Char.toLower
  simp only [ge_iff_le, UInt32.le_iff_toNat_le, hval]
  split
  · rename_i h
    have h' : 65 ≤ c.toNat ∧ c.toNat ≤ 90 := h
    rw [if_pos h']
    show (c.val + 32).toNat = _
    rw [UInt32.toNat_add, hval, Nat.mod_eq_of_lt]
    · rfl
    · show c.toNat + 32 < _
      omega
  · rename_i h
    rw [if_neg]
    exact h

theorem toLower_toLower (c : Char) : c.toLower.toLower = c.toLower := by
  rw [← Char.toNat_inj, toNat_toLower c.toLower, toNat_toLower c]
  split
  · rw [if_neg]
    omega
  · rfl

/-- ASCII case folding leaves a character beyond ASCII alone, and maps nothing else to it. -/
theorem toLower_eq_toLower_iff {c d : Char} (hc : 0x80 ≤ c.toNat) :
    c.toLower = d.toLower ↔ d = c := by
  rw [← Char.toNat_inj, ← Char.toNat_inj, toNat_toLower, toNat_toLower]
  split <;> split <;> omega

/-! ## Trimming -/

/-- `char::is_whitespace`: the Unicode property `White_Space`. -/
def isWhitespace (c : Char) : Bool :=
  let n := c.toNat
  (9 ≤ n && n ≤ 13) || n == 0x20 || n == 0x85 || n == 0xA0 || n == 0x1680 ||
    (0x2000 ≤ n && n ≤ 0x200A) || n == 0x2028 || n == 0x2029 || n == 0x202F || n == 0x205F ||
    n == 0x3000

def trimChars (p : Char → Bool) (l : List Char) : List Char :=
  ((l.dropWhile p).reverse.dropWhile p).reverse

def trim (s : String) : String := String.ofList (trimChars isWhitespace s.toList)

theorem trimChars_eq_nil {p : Char → Bool} {l : List Char} :
    trimChars p l = [] ↔ ∀ c ∈ l, p c = true := by
  unfold trimChars
  rw [List.reverse_eq_nil_iff, List.dropWhile_eq_nil_iff]
  constructor
  · intro h
    rw [← List.dropWhile_eq_nil_iff]
    cases hrest : l.dropWhile p with
    | nil => rfl
    | cons c rest =>
      -- the first character that is kept is not trimmed from the right either
      have hkept : p c ≠ true := by
        have := List.head_dropWhile_not p (by simp [hrest] : l.dropWhile p ≠ [])
        simpa [hrest] using this
      rw [hrest] at h
      exact absurd (h c (by simp)) hkept
  · intro h c hc
    rw [List.dropWhile_eq_nil_iff.mpr h] at hc
    cases hc

theorem trim_isEmpty {s : String} :
    (trim s).isEmpty = true ↔ ∀ c ∈ s.toList, isWhitespace c = true := by
  rw [← trimChars_eq_nil, trim]
  simp

def trimMatches (s : String) (c : Char) : String := String.ofList (trimChars (· == c) s.toList)

/-! ## Control characters -/

/-- `char::is_control`: the Unicode category `Cc`. -/
def isControl (c : Char) : Bool := c.toNat < 0x20 || (0x7F ≤ c.toNat && c.toNat ≤ 0x9F)

/-! ## Unicode lower case -/

/-- The Unicode properties `to_lowercase` reads. -/
structure CaseTable where
  /-- `char::to_lowercase`, which may give several characters -/
  lower : Char → List Char
  /-- derived property `Cased` -/
  cased : Char → Bool
  /-- derived property `Case_Ignorable` -/
  caseIgnorable : Char → Bool

/-- The facts about the lower-case mapping that do not change with the Unicode version. -/
structure CaseTable.Lawful (T : CaseTable) : Prop where
  lower_ne_nil : ∀ c, T.lower c ≠ []
  lower_ascii : ∀ c, c.toNat < 0x80 → T.lower c = [c.toLower]

variable (T : CaseTable)

def caseIgnorableThenCased : List Char → Bool
  | [] => false
  | c :: cs => if T.caseIgnorable c then caseIgnorableThenCased cs else T.cased c

/-- `before` is the text to the left, nearest character first. -/
def toLowercaseChars (before : List Char) : List Char → List Char
  | [] => []
  | c :: cs =>
    (if c = 'Σ' then
      (if caseIgnorableThenCased T before && !caseIgnorableThenCased T cs then ['ς'] else ['σ'])
    else T.lower c) ++ toLowercaseChars (c :: before) cs

def toLowercase (s : String) : String := String.ofList (toLowercaseChars T [] s.toList)

/-- Beyond ASCII, `s` is in lower case already. -/
def NonAsciiLowercase (s : String) : Prop :=
  ∀ c ∈ s.toList, 0x80 ≤ c.toNat → c ≠ 'Σ' ∧ T.lower c = [c]

instance (s : String) : Decidable (NonAsciiLowercase T s) :=
  List.decidableBAll (fun c : Char => 0x80 ≤ c.toNat → c ≠ 'Σ' ∧ T.lower c = [c]) s.toList

variable {T}

theorem length_le_toLowercaseChars (laws : T.Lawful) (before cs : List Char) :
    cs.length ≤ (toLowercaseChars T before cs).length := by
  induction cs generalizing before with
  | nil => exact Nat.zero_le _
  | cons c cs ih =>
    have htail := ih (c :: before)
    have hhead := List.length_pos_of_ne_nil (laws.lower_ne_nil c)
    simp only [toLowercaseChars, List.length_append, List.length_cons]
    split
    · split <;> simp only [List.length_singleton] <;> omega
    · omega

/-- One character at a time: `L` is what the character `c` is lowered to. -/
theorem map_toLower_cons_iff {c : Char} {cs L R : List Char} (hL : L ≠ [])
    (hR : cs.length ≤ R.length) :
    (c :: cs).map Char.toLower = (L ++ R).map Char.toLower ↔
      L.map Char.toLower = [c.toLower] ∧ cs.map Char.toLower = R.map Char.toLower := by
  rw [List.map_append, List.map_cons]
  constructor
  · intro h
    have hlen := congrArg List.length h
    have hpos := List.length_pos_of_ne_nil hL
    simp only [List.length_cons, List.length_append, List.length_map] at hlen
    have hone : ([c.toLower] : List Char).length = (L.map Char.toLower).length := by
      rw [List.length_map, List.length_singleton]
      omega
    obtain ⟨hhead, htail⟩ := List.append_inj (List.singleton_append.trans h) hone
    exact ⟨hhead.symm, htail⟩
  · rintro ⟨hhead, htail⟩
    rw [hhead, htail]
    rfl

/-- `L` is what the final sigma becomes. -/
theorem lowered_iff (laws : T.Lawful) {c : Char} {L : List Char} (hL : L = ['ς'] ∨ L = ['σ']) :
    (if c = 'Σ' then L else T.lower c).map Char.toLower = [c.toLower] ↔
      (0x80 ≤ c.toNat → c ≠ 'Σ' ∧ T.lower c = [c]) := by
  by_cases hc : c = 'Σ'
  · rw [if_pos hc, hc]
    constructor
    · intro h
      rcases hL with rfl | rfl
      · exact absurd h (by decide)
      · exact absurd h (by decide)
    · intro h
      exact absurd rfl (h (by decide)).1
  · rw [if_neg hc]
    constructor
    · intro h hbeyond
      obtain ⟨d, hd, hlow⟩ := List.map_eq_singleton_iff.mp h
      rw [(toLower_eq_toLower_iff hbeyond).mp hlow.symm] at hd
      exact ⟨hc, hd⟩
    · intro h
      rcases Nat.lt_or_ge c.toNat 0x80 with hascii | hbeyond
      · rw [laws.lower_ascii c hascii, List.map_singleton, toLower_toLower]
      · rw [(h hbeyond).2, List.map_singleton]

theorem toLowercaseChars_iff (laws : T.Lawful) (before cs : List Char) :
    cs.map Char.toLower = (toLowercaseChars T before cs).map Char.toLower ↔
      ∀ c ∈ cs, 0x80 ≤ c.toNat → c ≠ 'Σ' ∧ T.lower c = [c] := by
  induction cs generalizing before with
  | nil => simp [toLowercaseChars]
  | cons c cs ih =>
    have hsigma : ∀ b : Bool, (if b = true then ['ς'] else ['σ']) = ['ς'] ∨
        (if b = true then ['ς'] else ['σ']) = ['σ'] := by
      intro b
      cases b
      · exact Or.inr rfl
      · exact Or.inl rfl
    have hne : (if c = 'Σ' then
        (if caseIgnorableThenCased T before && !caseIgnorableThenCased T cs then ['ς'] else ['σ'])
        else T.lower c) ≠ [] := by
      split
      · split <;> exact List.cons_ne_nil _ _
      · exact laws.lower_ne_nil c
    rw [toLowercaseChars, map_toLower_cons_iff hne (length_le_toLowercaseChars laws _ cs),
      lowered_iff laws (hsigma _), ih, List.forall_mem_cons]

/-- Up to ASCII case, lower case keeps a text exactly when it keeps each character. -/
theorem eqIgnoreAsciiCase_toLowercase (laws : T.Lawful) (s : String) :
    eqIgnoreAsciiCase s (toLowercase T s) = true ↔ NonAsciiLowercase T s := by
  unfold eqIgnoreAsciiCase toLowercase
  rw [decide_eq_true_iff, String.toList_ofList]
  exact toLowercaseChars_iff laws [] s.toList

/-- The ASCII part of the tables. -/
def asciiTable : CaseTable where
  lower c := [c.toLower]
  cased c := c.isAlpha
  caseIgnorable c := ['\'', '.', ':', '^', '`'].contains c

example : toLowercase asciiTable "Mail.Example.COM" = "mail.example.com" := by decide

end RustStr
