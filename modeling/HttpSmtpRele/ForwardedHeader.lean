import HttpSmtpRele.AuthGate
import HttpSmtpRele.Lib.IpText
import HttpSmtpRele.Lib.StrSlice

/-!
# The `Forwarded` header

RFC 7239 writes an address as a node: an IPv4 address bare or in quotes, an IPv6
address in quoted brackets, and after either of them, inside the quotes, a colon
and a port.  The node is the value of `for`, one parameter among others of the
first element.  The lemmas say which characters each part is written with.
-/

namespace HttpSmtpRele

open RustStr

/-- The characters of an address. -/
def AddressChar (c : Char) : Prop :=
  c = '.' ∨ c = ':' ∨ (IpText.digitValue 16 c).isSome = true

instance (c : Char) : Decidable (AddressChar c) :=
  inferInstanceAs (Decidable (c = '.' ∨ c = ':' ∨ (IpText.digitValue 16 c).isSome = true))

/-- `Display` and `FromStr` of `IpAddr`: what is printed parses, and what parses is made
of hexadecimal digits, points and colons, with no colon after a point. -/
structure PrintsIp (D : Deps) (showIp : IpAddr → String) : Prop where
  parse_show : ∀ ip, D.parseIpAddr (showIp ip) = some ip
  v4_dotted : ∀ bits, '.' ∈ (showIp (.v4 bits)).toList
  v6_colons : ∀ bits, ':' ∈ (showIp (.v6 bits)).toList
  chars : ∀ s ip, D.parseIpAddr s = some ip → ∀ c ∈ s.toList, AddressChar c
  no_colon_after_dot : ∀ s ip before after, D.parseIpAddr s = some ip →
    s.toList = before ++ '.' :: after → ':' ∉ after

/-- `tchar` -/
def isTchar (c : Char) : Bool :=
  c.isAlphanum ||
    ['!', '#', '$', '%', '&', '\'', '*', '+', '-', '.', '^', '_', '`', '|', '~'].contains c

def IsToken (l : List Char) : Prop := l ≠ [] ∧ ∀ c ∈ l, isTchar c = true

/-- Optional spaces around a parameter. -/
def IsBlank (l : List Char) : Prop := ∀ c ∈ l, c = ' ' ∨ c = '\t'

/-- `node-port`: one to five digits, or an obfuscated port. -/
def IsNodePort (l : List Char) : Prop :=
  (1 ≤ l.length ∧ l.length ≤ 5 ∧ ∀ c ∈ l, c.isDigit = true) ∨
    ∃ rest, l = '_' :: rest ∧ rest ≠ [] ∧
      ∀ c ∈ rest, c.isAlphanum = true ∨ c = '.' ∨ c = '_' ∨ c = '-'

/-- A parameter that is not `for`, with the spaces around it. -/
structure OtherParam where
  left : List Char
  name : List Char
  value : List Char
  right : List Char
  left_blank : IsBlank left
  name_token : IsToken name
  name_other : name.map Char.toLower ≠ ['f', 'o', 'r']
  value_token : IsToken value
  right_blank : IsBlank right

def OtherParam.text (p : OtherParam) : List Char :=
  p.left ++ (p.name ++ '=' :: p.value) ++ p.right

def IpAddr.isV6 : IpAddr → Bool
  | .v4 _ => false
  | .v6 _ => true

structure ForwardedNode where
  ip : IpAddr
  port : Option { l : List Char // IsNodePort l }
  quoted : Bool
  needs_quotes : ip.isV6 = true ∨ port.isSome = true → quoted = true

/-- A `Forwarded` header whose first element has a `for` parameter. -/
structure ForwardedHeader where
  before : List OtherParam
  left : List Char
  forName : List Char
  node : ForwardedNode
  right : List Char
  after : List OtherParam
  /-- the bytes after the first comma -/
  further : Option (List UInt8)
  left_blank : IsBlank left
  for_name : forName.map Char.toLower = ['f', 'o', 'r']
  right_blank : IsBlank right

section Rendering

variable (showIp : IpAddr → String)

def hostText : IpAddr → List Char
  | .v4 bits => (showIp (.v4 bits)).toList
  | .v6 bits => '[' :: ((showIp (.v6 bits)).toList ++ [']'])

namespace ForwardedNode

def portText (n : ForwardedNode) : List Char :=
  match n.port with
  | none => []
  | some port => ':' :: port.val

/-- What stands between the quotes, where there are any. -/
def inner (n : ForwardedNode) : List Char := hostText showIp n.ip ++ n.portText

def text (n : ForwardedNode) : List Char :=
  if n.quoted then '"' :: (n.inner showIp ++ ['"']) else n.inner showIp

end ForwardedNode

namespace ForwardedHeader

def forText (h : ForwardedHeader) : List Char :=
  h.left ++ (h.forName ++ '=' :: h.node.text showIp) ++ h.right

def params (h : ForwardedHeader) : List (List Char) :=
  h.before.map OtherParam.text ++ h.forText showIp :: h.after.map OtherParam.text

/-- The first element, up to the comma. -/
def element (h : ForwardedHeader) : List Char := [';'].intercalate (h.params showIp)

def furtherBytes (h : ForwardedHeader) : List UInt8 :=
  match h.further with
  | none => []
  | some bytes => 44 :: bytes

def value (h : ForwardedHeader) : List UInt8 :=
  asciiBytes (String.ofList (h.element showIp)) ++ h.furtherBytes

end ForwardedHeader

end Rendering

namespace ForwardedHeader

/-! ## Characters -/

/-- What a parameter is made of: it ends none, and no spaces are trimmed from it. -/
structure Inside (c : Char) : Prop where
  low : 33 ≤ c.toNat
  high : c.toNat ≤ 126
  not_comma : c ≠ ','
  not_semicolon : c ≠ ';'

instance (c : Char) : Decidable (Inside c) :=
  decidable_of_iff (33 ≤ c.toNat ∧ c.toNat ≤ 126 ∧ c ≠ ',' ∧ c ≠ ';')
    ⟨fun h => ⟨h.1, h.2.1, h.2.2.1, h.2.2.2⟩,
      fun h => ⟨h.low, h.high, h.not_comma, h.not_semicolon⟩⟩

theorem range_of_and {c : Char} (low high : UInt32)
    (h : (decide (c.val ≥ low) && decide (c.val ≤ high)) = true) :
    low.toNat ≤ c.toNat ∧ c.toNat ≤ high.toNat := by
  obtain ⟨hlow, hhigh⟩ := Bool.and_eq_true_iff.mp h
  exact ⟨UInt32.le_iff_toNat_le.mp (of_decide_eq_true hlow),
    UInt32.le_iff_toNat_le.mp (of_decide_eq_true hhigh)⟩

theorem isAlphanum_ranges {c : Char} (h : c.isAlphanum = true) :
    (48 ≤ c.toNat ∧ c.toNat ≤ 57) ∨ (65 ≤ c.toNat ∧ c.toNat ≤ 90) ∨
      (97 ≤ c.toNat ∧ c.toNat ≤ 122) := by
  rcases Bool.or_eq_true_iff.mp h with halpha | hdigit
  · rcases Bool.or_eq_true_iff.mp halpha with hupper | hlower
    · have hvals : c.val ≥ 'A'.val ∧ c.val ≤ 'Z'.val := of_decide_eq_true hupper
      exact Or.inr (Or.inl ⟨UInt32.le_iff_toNat_le.mp hvals.1, UInt32.le_iff_toNat_le.mp hvals.2⟩)
    · exact Or.inr (Or.inr (range_of_and 'a'.val 'z'.val hlower))
  · exact Or.inl (range_of_and '0'.val '9'.val hdigit)

theorem inside_of_isAlphanum {c : Char} (h : c.isAlphanum = true) : Inside c := by
  have hranges := isAlphanum_ranges h
  refine ⟨by omega, by omega, ?_, ?_⟩
  · rintro rfl
    exact absurd h (by decide)
  · rintro rfl
    exact absurd h (by decide)

theorem inside_of_isTchar {c : Char} (h : isTchar c = true) : Inside c ∧ c ≠ '=' := by
  constructor
  · rcases Bool.or_eq_true_iff.mp h with halnum | hlist
    · exact inside_of_isAlphanum halnum
    · have hall : (['!', '#', '$', '%', '&', '\'', '*', '+', '-', '.', '^', '_', '`', '|',
          '~'].all fun c => decide (33 ≤ c.toNat ∧ c.toNat ≤ 126)) = true := by decide
      have hrange := of_decide_eq_true (List.all_eq_true.mp hall c (List.contains_iff_mem.mp hlist))
      refine ⟨hrange.1, hrange.2, ?_, ?_⟩
      · rintro rfl
        exact absurd h (by decide)
      · rintro rfl
        exact absurd h (by decide)
  · rintro rfl
    exact absurd h (by decide)

/-- The characters of addresses and ports, which no `trim_matches` takes off. -/
structure Untrimmed (c : Char) : Prop extends Inside c where
  not_quote : c ≠ '"'
  not_open : c ≠ '['
  not_close : c ≠ ']'

theorem untrimmed_of_address {c : Char} (h : AddressChar c) : Untrimmed c := by
  have hrange : 33 ≤ c.toNat ∧ c.toNat ≤ 126 := by
    rcases h with rfl | rfl | hdigit
    · decide
    · decide
    · obtain ⟨v, hv⟩ := Option.isSome_iff_exists.mp hdigit
      have hranges := IpText.hexValue_ranges (Option.filter_eq_some_iff.mp hv).1
      omega
  have hne : ∀ d, ¬AddressChar d → c ≠ d := fun d hd heq => hd (heq ▸ h)
  exact
    { low := hrange.1
      high := hrange.2
      not_comma := hne _ (by decide)
      not_semicolon := hne _ (by decide)
      not_quote := hne _ (by decide)
      not_open := hne _ (by decide)
      not_close := hne _ (by decide) }

theorem untrimmed_of_isAlphanum {c : Char} (h : c.isAlphanum = true) : Untrimmed c := by
  have hne : ∀ d : Char, d.isAlphanum = false → c ≠ d := by
    rintro d hd rfl
    rw [h] at hd
    cases hd
  exact
    { inside_of_isAlphanum h with
      not_quote := hne _ (by decide)
      not_open := hne _ (by decide)
      not_close := hne _ (by decide) }

theorem untrimmed_of_port {l : List Char} (h : IsNodePort l) :
    l ≠ [] ∧ ∀ c ∈ l, Untrimmed c := by
  have hdigit : ∀ c : Char, c.isDigit = true → c.isAlphanum = true := by
    intro c hc
    exact Bool.or_eq_true_iff.mpr (Or.inr hc)
  have hpunct : ∀ c, c = '.' ∨ c = '_' ∨ c = '-' → Untrimmed c := by
    rintro c (rfl | rfl | rfl)
    · exact ⟨by decide, by decide, by decide, by decide⟩
    · exact ⟨by decide, by decide, by decide, by decide⟩
    · exact ⟨by decide, by decide, by decide, by decide⟩
  rcases h with ⟨hlen, -, hdigits⟩ | ⟨rest, rfl, -, hrest⟩
  · refine ⟨List.ne_nil_of_length_pos hlen, fun c hc => ?_⟩
    exact untrimmed_of_isAlphanum (hdigit c (hdigits c hc))
  · refine ⟨List.cons_ne_nil _ _, fun c hc => ?_⟩
    rcases List.mem_cons.mp hc with rfl | hmem
    · exact hpunct _ (by decide)
    · rcases hrest c hmem with halnum | hother
      · exact untrimmed_of_isAlphanum halnum
      · exact hpunct c hother

theorem Inside.not_whitespace {c : Char} (h : Inside c) : isWhitespace c = false := by
  have hlow := h.low
  have hhigh := h.high
  simp only [isWhitespace, Bool.or_eq_false_iff, Bool.and_eq_false_iff, decide_eq_false_iff_not,
    beq_eq_false_iff_ne]
  omega

theorem blank_whitespace {l : List Char} (h : IsBlank l) : ∀ c ∈ l, isWhitespace c = true := by
  intro c hc
  rcases h c hc with rfl | rfl
  · decide
  · decide

theorem forName_inside {name : List Char} (hname : name.map Char.toLower = ['f', 'o', 'r']) :
    ∀ c ∈ name, Inside c := by
  intro c hc
  have hmem : c.toLower ∈ ['f', 'o', 'r'] := hname ▸ List.mem_map_of_mem hc
  have hlower := toNat_toLower c
  have hletter : c.toLower.toNat = 102 ∨ c.toLower.toNat = 111 ∨ c.toLower.toNat = 114 := by
    rcases List.mem_cons.mp hmem with hf | hmem
    · exact Or.inl (congrArg Char.toNat hf)
    · rcases List.mem_cons.mp hmem with ho | hr
      · exact Or.inr (Or.inl (congrArg Char.toNat ho))
      · exact Or.inr (Or.inr (congrArg Char.toNat (List.mem_singleton.mp hr)))
  have hrange : 65 ≤ c.toNat ∧ c.toNat ≤ 114 := by
    split at hlower <;> omega
  refine ⟨by omega, by omega, ?_, ?_⟩
  · rintro rfl
    exact absurd hrange.1 (by decide)
  · intro hsemicolon
    rw [hsemicolon] at hrange
    exact absurd hrange.1 (by decide)

/-! ## Nodes -/

section Node

variable {D : Deps} {showIp : IpAddr → String}

theorem untrimmed_of_show (hD : PrintsIp D showIp) (ip : IpAddr) :
    ∀ c ∈ (showIp ip).toList, Untrimmed c :=
  fun c hc => untrimmed_of_address (hD.chars _ ip (hD.parse_show ip) c hc)

theorem show_ne_nil (hD : PrintsIp D showIp) (ip : IpAddr) : (showIp ip).toList ≠ [] := by
  cases ip with
  | v4 bits => exact List.ne_nil_of_mem (hD.v4_dotted bits)
  | v6 bits => exact List.ne_nil_of_mem (hD.v6_colons bits)

theorem portText_spec (n : ForwardedNode) : ∀ c ∈ n.portText, Untrimmed c := by
  unfold ForwardedNode.portText
  cases n.port with
  | none => simp
  | some port =>
    intro c hc
    rcases List.mem_cons.mp hc with rfl | hmem
    · exact untrimmed_of_address (by decide)
    · exact (untrimmed_of_port port.property).2 c hmem

theorem hostText_spec (hD : PrintsIp D showIp) (ip : IpAddr) :
    ∀ c ∈ hostText showIp ip, Inside c ∧ c ≠ '"' := by
  have hshow := untrimmed_of_show hD ip
  intro c hc
  cases ip with
  | v4 bits => exact ⟨(hshow c hc).toInside, (hshow c hc).not_quote⟩
  | v6 bits =>
    rcases List.mem_cons.mp hc with rfl | hmem
    · exact ⟨by decide, by decide⟩
    · rcases List.mem_append.mp hmem with hmem | hmem
      · exact ⟨(hshow c hmem).toInside, (hshow c hmem).not_quote⟩
      · rw [List.mem_singleton.mp hmem]
        exact ⟨by decide, by decide⟩

theorem inner_spec (hD : PrintsIp D showIp) (n : ForwardedNode) :
    ∀ c ∈ n.inner showIp, Inside c ∧ c ≠ '"' := by
  intro c hc
  rcases List.mem_append.mp hc with hmem | hmem
  · exact hostText_spec hD n.ip c hmem
  · have hport := portText_spec n c hmem
    exact ⟨hport.toInside, hport.not_quote⟩

theorem text_spec (hD : PrintsIp D showIp) (n : ForwardedNode) :
    ∀ c ∈ n.text showIp, Inside c := by
  have hquote : Inside '"' := by decide
  intro c hc
  unfold ForwardedNode.text at hc
  split at hc
  · rcases List.mem_cons.mp hc with rfl | hmem
    · exact hquote
    · rcases List.mem_append.mp hmem with hmem | hmem
      · exact (inner_spec hD n c hmem).1
      · rw [List.mem_singleton.mp hmem]
        exact hquote
  · exact (inner_spec hD n c hc).1

end Node

/-! ## Bytes -/

/-- Visible ASCII, spaces and tabs: what `to_str` accepts. -/
def IsHeaderText (bytes : List UInt8) : Prop := ∀ b ∈ bytes, (32 ≤ b ∧ b < 127) ∨ b = 9

instance (bytes : List UInt8) : Decidable (IsHeaderText bytes) :=
  List.decidableBAll (fun b : UInt8 => (32 ≤ b ∧ b < 127) ∨ b = 9) bytes

theorem toStr_eq_some {bytes : List UInt8} (h : IsHeaderText bytes) :
    HeaderMap.toStr bytes = some (String.ofList (bytes.map fun b => Char.ofNat b.toNat)) := by
  apply if_pos
  rw [List.all_eq_true]
  intro b hb
  simpa using h b hb

theorem toStr_eq_none {bytes : List UInt8} (h : ¬IsHeaderText bytes) :
    HeaderMap.toStr bytes = none := by
  apply if_neg
  intro hall
  apply h
  intro b hb
  simpa using List.all_eq_true.mp hall b hb

theorem isHeaderText_append {bytes more : List UInt8} :
    IsHeaderText (bytes ++ more) ↔ IsHeaderText bytes ∧ IsHeaderText more :=
  List.forall_mem_append

/-- A character whose byte `to_str` accepts is what the byte is read as. -/
theorem byte_of_char {c : Char} (h : (32 ≤ c.toNat ∧ c.toNat ≤ 126) ∨ c.toNat = 9) :
    ((32 ≤ c.toNat.toUInt8 ∧ c.toNat.toUInt8 < 127) ∨ c.toNat.toUInt8 = 9) ∧
      Char.ofNat c.toNat.toUInt8.toNat = c := by
  have hnat : c.toNat.toUInt8.toNat = c.toNat := by
    show c.toNat % 256 = c.toNat
    omega
  constructor
  · rw [UInt8.le_iff_toNat_le, UInt8.lt_iff_toNat_lt, ← UInt8.toNat_inj, hnat]
    show (32 ≤ c.toNat ∧ c.toNat < 127) ∨ c.toNat = 9
    omega
  · rw [hnat, Char.ofNat_toNat]

/-- The characters that stand in a rendered element. -/
def HeaderChar (c : Char) : Prop := (32 ≤ c.toNat ∧ c.toNat ≤ 126) ∨ c.toNat = 9

theorem isHeaderText_asciiBytes {cs : List Char} (h : ∀ c ∈ cs, HeaderChar c) :
    IsHeaderText (asciiBytes (String.ofList cs)) := by
  intro b hb
  unfold asciiBytes at hb
  rw [String.toList_ofList] at hb
  obtain ⟨c, hc, rfl⟩ := List.mem_map.mp hb
  exact (byte_of_char (h c hc)).1

theorem map_asciiBytes {cs : List Char} (h : ∀ c ∈ cs, HeaderChar c) :
    (asciiBytes (String.ofList cs)).map (fun b => Char.ofNat b.toNat) = cs := by
  unfold asciiBytes
  rw [String.toList_ofList, List.map_map]
  calc
    _ = cs.map id := List.map_congr_left fun c hc => (byte_of_char (h c hc)).2
    _ = cs := List.map_id cs

section Header

variable {D : Deps} {showIp : IpAddr → String}

theorem headerChar_of_inside {c : Char} (hc : Inside c) : HeaderChar c :=
  Or.inl ⟨Nat.le_of_succ_le hc.low, hc.high⟩

/-- What a parameter is written with: none of the separators, all of it readable. -/
structure ParamChar (c : Char) : Prop where
  readable : HeaderChar c
  not_comma : c ≠ ','
  not_semicolon : c ≠ ';'

theorem ParamChar.of_inside {c : Char} (hc : Inside c) : ParamChar c :=
  ⟨headerChar_of_inside hc, hc.not_comma, hc.not_semicolon⟩

theorem paramChar_of_blank {l : List Char} (hl : IsBlank l) : ∀ c ∈ l, ParamChar c := by
  intro c hc
  rcases hl c hc with rfl | rfl
  · exact ⟨Or.inl (by decide), by decide, by decide⟩
  · exact ⟨Or.inr (by decide), by decide, by decide⟩

theorem paramChar_param {left name value right : List Char} (hleft : IsBlank left)
    (hname : ∀ c ∈ name, Inside c) (hvalue : ∀ c ∈ value, Inside c) (hright : IsBlank right) :
    ∀ c ∈ left ++ (name ++ '=' :: value) ++ right, ParamChar c := by
  intro c hc
  rcases List.mem_append.mp hc with hmem | hmem
  · rcases List.mem_append.mp hmem with hmem | hmem
    · exact paramChar_of_blank hleft c hmem
    · rcases List.mem_append.mp hmem with hmem | hmem
      · exact .of_inside (hname c hmem)
      · rcases List.mem_cons.mp hmem with rfl | hmem
        · exact .of_inside (by decide)
        · exact .of_inside (hvalue c hmem)
  · exact paramChar_of_blank hright c hmem

theorem params_spec (hD : PrintsIp D showIp) (h : ForwardedHeader) :
    ∀ param ∈ h.params showIp, ∀ c ∈ param, ParamChar c := by
  have hother : ∀ p : OtherParam, ∀ c ∈ p.text, ParamChar c := fun p =>
    paramChar_param p.left_blank (fun c hc => (inside_of_isTchar (p.name_token.2 c hc)).1)
      (fun c hc => (inside_of_isTchar (p.value_token.2 c hc)).1) p.right_blank
  intro param hparam
  rcases List.mem_append.mp hparam with hmem | hmem
  · obtain ⟨p, -, rfl⟩ := List.mem_map.mp hmem
    exact hother p
  · rcases List.mem_cons.mp hmem with rfl | hmem
    · exact paramChar_param h.left_blank (forName_inside h.for_name) (text_spec hD h.node)
        h.right_blank
    · obtain ⟨p, -, rfl⟩ := List.mem_map.mp hmem
      exact hother p

theorem element_spec (hD : PrintsIp D showIp) (h : ForwardedHeader) :
    ∀ c ∈ h.element showIp, HeaderChar c ∧ c ≠ ',' := by
  intro c hc
  rcases mem_intercalate hc with rfl | ⟨param, hparam, hmem⟩
  · exact ⟨Or.inl (by decide), by decide⟩
  · have hchar := params_spec hD h param hparam c hmem
    exact ⟨hchar.readable, hchar.not_comma⟩

theorem isHeaderText_value (hD : PrintsIp D showIp) (h : ForwardedHeader) :
    IsHeaderText (h.value showIp) ↔ ∀ bytes ∈ h.further, IsHeaderText bytes := by
  have helement : IsHeaderText (asciiBytes (String.ofList (h.element showIp))) :=
    isHeaderText_asciiBytes fun c hc => (element_spec hD h c hc).1
  unfold ForwardedHeader.value ForwardedHeader.furtherBytes
  rw [isHeaderText_append]
  cases h.further with
  | none =>
    constructor
    · simp
    · exact fun _ => ⟨helement, by simp [IsHeaderText]⟩
  | some bytes =>
    have hcomma : (32 ≤ (44 : UInt8) ∧ (44 : UInt8) < 127) ∨ (44 : UInt8) = 9 := by decide
    constructor
    · rintro ⟨-, hfurther⟩ bytes' hbytes'
      obtain rfl := Option.some.inj hbytes'
      exact fun b hb => hfurther b (List.mem_cons_of_mem _ hb)
    · intro hfurther
      exact ⟨helement, List.forall_mem_cons.mpr ⟨hcomma, hfurther bytes rfl⟩⟩

end Header

/-! ## Addresses with all their fields

What `Display` prints of an IPv6 address without two zero groups in a row. -/

def fieldText : IpAddr → String
  | .v4 bits => String.ofList (IpText.dotted.write bits.toNat)
  | .v6 bits => String.ofList (IpText.colons.write bits.toNat)

def parseFields (s : String) : Option IpAddr :=
  ((IpText.dotted.read s.toList).map fun n => .v4 (BitVec.ofNat 32 n)).or
    ((IpText.colons.read s.toList).map fun n => .v6 (BitVec.ofNat 128 n))

def fieldDeps : Deps := { proxyDeps with parseIpAddr := parseFields }

theorem dotted_read_write (bits : BitVec 32) :
    IpText.dotted.read (IpText.dotted.write bits.toNat) = some bits.toNat :=
  IpText.Layout.read_write IpText.Layout.dotted_readsFields rfl (by decide) (by decide) bits.isLt

theorem colons_read_write (bits : BitVec 128) :
    IpText.colons.read (IpText.colons.write bits.toNat) = some bits.toNat :=
  IpText.Layout.read_write IpText.Layout.colons_readsFields rfl (by decide) (by decide) bits.isLt

theorem dot_of_dotted {cs : List Char} {n : Nat} (h : IpText.dotted.read cs = some n) :
    '.' ∈ cs ∧ ':' ∉ cs := by
  refine ⟨IpText.Layout.separator_of_read (by decide) h, fun hmem => ?_⟩
  exact absurd (IpText.Layout.chars_of_read h _ hmem) (by decide)

theorem colon_of_colons {cs : List Char} {n : Nat} (h : IpText.colons.read cs = some n) :
    ':' ∈ cs ∧ '.' ∉ cs := by
  refine ⟨IpText.Layout.separator_of_read (by decide) h, fun hmem => ?_⟩
  exact absurd (IpText.Layout.chars_of_read h _ hmem) (by decide)

theorem parseFields_cases {s : String} {ip : IpAddr} (h : parseFields s = some ip) :
    (∃ n, IpText.dotted.read s.toList = some n) ∨ ∃ n, IpText.colons.read s.toList = some n := by
  unfold parseFields at h
  cases hdotted : IpText.dotted.read s.toList with
  | some n => exact Or.inl ⟨n, rfl⟩
  | none =>
    rw [hdotted, Option.map_none, Option.none_or] at h
    obtain ⟨n, hn, -⟩ := Option.map_eq_some_iff.mp h
    exact Or.inr ⟨n, hn⟩

theorem fieldDeps_printsIp : PrintsIp fieldDeps fieldText where
  parse_show ip := by
    show parseFields (fieldText ip) = some ip
    unfold parseFields
    cases ip with
    | v4 bits =>
      unfold fieldText
      rw [String.toList_ofList, dotted_read_write, Option.map_some, Option.some_or,
        BitVec.ofNat_toNat, BitVec.setWidth_eq]
    | v6 bits =>
      unfold fieldText
      have hread := colons_read_write bits
      rw [String.toList_ofList, hread]
      cases hdotted : IpText.dotted.read (IpText.colons.write bits.toNat) with
      | some n => exact absurd (dot_of_dotted hdotted).1 (colon_of_colons hread).2
      | none =>
        rw [Option.map_none, Option.none_or, Option.map_some, BitVec.ofNat_toNat,
          BitVec.setWidth_eq]
  v4_dotted bits := by
    unfold fieldText
    rw [String.toList_ofList]
    exact (dot_of_dotted (dotted_read_write bits)).1
  v6_colons bits := by
    unfold fieldText
    rw [String.toList_ofList]
    exact (colon_of_colons (colons_read_write bits)).1
  chars := by
    intro s ip h c hc
    rcases parseFields_cases h with ⟨n, hn⟩ | ⟨n, hn⟩
    · rcases IpText.Layout.chars_of_read hn c hc with hdot | hdigit
      · exact Or.inl hdot
      · exact Or.inr (Or.inr (IpText.isSome_digitValue_mono (by decide) hdigit))
    · exact Or.inr (IpText.Layout.chars_of_read hn c hc)
  no_colon_after_dot := by
    intro s ip before after h hs hcolon
    rcases parseFields_cases h with ⟨n, hn⟩ | ⟨n, hn⟩
    · apply (dot_of_dotted hn).2
      rw [hs]
      exact List.mem_append_right _ (List.mem_cons_of_mem _ hcolon)
    · apply (colon_of_colons hn).2
      rw [hs]
      exact List.mem_append_right _ List.mem_cons_self

end ForwardedHeader

end HttpSmtpRele
