import HttpSmtpRele.ForwardedHeader

/-!
# The `for` parameter of `Forwarded`

`parse_forwarded_for` takes the quotes and the brackets off the value of `for` and
parses what is left as an address.  A node with a port is then no address, the
header counts as absent, and the request is read by its `X-Forwarded-For`.
-/

namespace HttpSmtpRele

open RustStr ForwardedHeader

/-! ## The slice as it is written -/

namespace Auth

variable (D : Deps)

/-- `&part[part.len() - addr_part.len()..]`; `none` is a panic of the subtraction or of
the slice. -/
def sliceTail (part addrPart : String) : Option String :=
  if part.utf8ByteSize < addrPart.utf8ByteSize then none
  else sliceFrom part (part.utf8ByteSize - addrPart.utf8ByteSize)

/-- `forwardedPart` with its slice; the outer `none` is the panic. -/
def forwardedPartSliced (part : String) : Option (Option IpAddr) :=
  let part := trim part
  match stripPrefix (toAsciiLowercase part) "for=" with
  | none => some none
  | some addrPart =>
    (sliceTail part addrPart).map fun addrStr =>
      D.parseIpAddr (trimMatches (trimMatches (trimMatches addrStr '"') '[') ']')

/-- The loop over the parts, which returns at the first address. -/
def forwardedPartsSliced : List String → Option (Option IpAddr)
  | [] => some none
  | part :: parts =>
    match forwardedPartSliced D part with
    | none => none
    | some (some ip) => some (some ip)
    | some none => forwardedPartsSliced parts

def parseForwardedForSliced (headers : HeaderMap) : Option (Option IpAddr) :=
  match (headers.getStr "forwarded").bind fun value => (split value ',').head? with
  | none => some none
  | some firstItem => forwardedPartsSliced D (split firstItem ';')

end Auth

namespace ForwardedFor

/-! ## One parameter -/

/-- What `trim` leaves of a parameter. -/
theorem trim_param {left core right : List Char} (hleft : IsBlank left) (hright : IsBlank right)
    (hcore : ∀ c ∈ core, isWhitespace c = false) :
    trim (String.ofList (left ++ core ++ right)) = String.ofList core := by
  unfold trim
  rw [String.toList_ofList,
    trimChars_between (blank_whitespace hleft) (blank_whitespace hright) hcore]

theorem stripPrefix_for {name rest : List Char} (hname : name.map Char.toLower = ['f', 'o', 'r']) :
    stripPrefix (toAsciiLowercase (String.ofList (name ++ '=' :: rest))) "for=" =
      some (String.ofList (rest.map Char.toLower)) := by
  rw [stripPrefix_eq_some, ← String.toList_inj]
  simp only [toAsciiLowercase, String.toList_append, String.toList_ofList, List.map_append, hname]
  rfl

/-- A parameter of another name: its own name ends at the first `=`. -/
theorem stripPrefix_other {name rest : List Char} (hname : IsToken name)
    (hother : name.map Char.toLower ≠ ['f', 'o', 'r']) :
    stripPrefix (toAsciiLowercase (String.ofList (name ++ '=' :: rest))) "for=" = none := by
  cases h : stripPrefix (toAsciiLowercase (String.ofList (name ++ '=' :: rest))) "for=" with
  | none => rfl
  | some tail =>
    exfalso
    rw [stripPrefix_eq_some, ← String.toList_inj] at h
    simp only [toAsciiLowercase, String.toList_append, String.toList_ofList, List.map_append] at h
    have hnot : '=' ∉ name.map Char.toLower := by
      intro hmem
      obtain ⟨c, hc, heq⟩ := List.mem_map.mp hmem
      have hlower := toNat_toLower c
      rw [heq] at hlower
      have heqNat : '='.toNat = 61 := rfl
      have hsame : c = '=' := by
        apply Char.toNat_inj.mp
        split at hlower <;> omega
      exact (inside_of_isTchar (hname.2 c hc)).2 hsame
    apply hother
    have hleft : (name.map Char.toLower ++ '=' :: rest.map Char.toLower).splitOn '=' = _ :=
      List.splitOn_append_cons_self_of_not_mem hnot _
    have hright : (['f', 'o', 'r'] ++ '=' :: tail.toList).splitOn '=' = _ :=
      List.splitOn_append_cons_self_of_not_mem (by decide) _
    have hsame : name.map Char.toLower ++ '=' :: rest.map Char.toLower =
      ['f', 'o', 'r'] ++ '=' :: tail.toList := h
    rw [hsame, hright] at hleft
    exact (List.cons.inj hleft).1.symm

theorem param_not_whitespace {name value : List Char}
    (hname : ∀ c ∈ name, isWhitespace c = false) (hvalue : ∀ c ∈ value, isWhitespace c = false) :
    ∀ c ∈ name ++ '=' :: value, isWhitespace c = false := by
  intro c hc
  rcases List.mem_append.mp hc with hmem | hmem
  · exact hname c hmem
  · rcases List.mem_cons.mp hmem with rfl | hmem
    · decide
    · exact hvalue c hmem

/-- What is left of a node when the quotes and the brackets are off. -/
def strippedNode (text : List Char) : String :=
  trimMatches (trimMatches (trimMatches (String.ofList text) '"') '[') ']'

theorem forwardedPart_for (D : Deps) {left name text right : List Char} (hleft : IsBlank left)
    (hright : IsBlank right) (hname : name.map Char.toLower = ['f', 'o', 'r'])
    (htext : ∀ c ∈ text, isWhitespace c = false) :
    Auth.forwardedPart D (String.ofList (left ++ (name ++ '=' :: text) ++ right)) =
      D.parseIpAddr (strippedNode text) := by
  have htrim := trim_param hleft hright (param_not_whitespace
    (fun c hc => (forName_inside hname c hc).not_whitespace) htext)
  have hdrop : (String.ofList (name ++ '=' :: text)).toList.drop
      ((String.ofList (name ++ '=' :: text)).length -
        (String.ofList (text.map Char.toLower)).length) = text := by
    have hlen : name.length + (text.length + 1) - text.length = name.length + 1 := by omega
    rw [String.toList_ofList, String.length_ofList, String.length_ofList, List.length_map,
      List.length_append, List.length_cons, hlen, List.drop_length_add_append]
    rfl
  unfold Auth.forwardedPart
  simp only [htrim, stripPrefix_for hname, Option.bind_some, hdrop]
  rfl

theorem forwardedPart_other (D : Deps) (p : OtherParam) :
    Auth.forwardedPart D (String.ofList p.text) = none := by
  have hname : ∀ c ∈ p.name, isWhitespace c = false :=
    fun c hc => (inside_of_isTchar (p.name_token.2 c hc)).1.not_whitespace
  have hvalue : ∀ c ∈ p.value, isWhitespace c = false :=
    fun c hc => (inside_of_isTchar (p.value_token.2 c hc)).1.not_whitespace
  have htrim : trim (String.ofList p.text) = String.ofList (p.name ++ '=' :: p.value) :=
    trim_param p.left_blank p.right_blank (param_not_whitespace hname hvalue)
  unfold Auth.forwardedPart
  simp only [htrim, stripPrefix_other p.name_token p.name_other, Option.bind_none]

/-! ## The node -/

section Node

variable {D : Deps} {showIp : IpAddr → String}

theorem trimMatches_quotes (hD : PrintsIp D showIp) (n : ForwardedNode) :
    trimMatches (String.ofList (n.text showIp)) '"' = String.ofList (n.inner showIp) := by
  have hnot : '"' ∉ n.inner showIp := fun hmem => (inner_spec hD n _ hmem).2 rfl
  unfold ForwardedNode.text
  split
  · exact trimMatches_around (l := ['"']) (r := ['"']) (by simp) (by simp) hnot
  · exact trimMatches_of_not_mem hnot

/-- Without a port the address is left. -/
theorem strippedNode_of_no_port (hD : PrintsIp D showIp) {n : ForwardedNode} (h : n.port = none) :
    strippedNode (n.text showIp) = showIp n.ip := by
  have hopen : '[' ∉ (showIp n.ip).toList :=
    fun hmem => (untrimmed_of_show hD n.ip _ hmem).not_open rfl
  have hclose : ']' ∉ (showIp n.ip).toList :=
    fun hmem => (untrimmed_of_show hD n.ip _ hmem).not_close rfl
  have hinner : n.inner showIp = hostText showIp n.ip := by
    unfold ForwardedNode.inner ForwardedNode.portText
    rw [h]
    exact List.append_nil _
  unfold strippedNode
  rw [trimMatches_quotes hD, hinner]
  cases hip : n.ip with
  | v4 bits =>
    rw [hip] at hopen hclose
    unfold hostText
    rw [trimMatches_of_not_mem hopen, trimMatches_of_not_mem hclose, String.ofList_toList]
  | v6 bits =>
    rw [hip] at hopen hclose
    have hnot : '[' ∉ (showIp (.v6 bits)).toList ++ [']'] := by
      intro hmem
      rcases List.mem_append.mp hmem with hmem | hmem
      · exact hopen hmem
      · exact absurd (List.mem_singleton.mp hmem) (by decide)
    have hleft : trimMatches (String.ofList (hostText showIp (.v6 bits))) '[' =
        String.ofList ((showIp (.v6 bits)).toList ++ [']']) := by
      have h := trimMatches_around (l := ['[']) (r := []) (by simp) (by simp) hnot
      rwa [List.append_nil] at h
    rw [hleft]
    have hright := trimMatches_around (l := []) (r := [']']) (by simp) (by simp) hclose
    rwa [List.nil_append, String.ofList_toList] at hright

/-- A port stays behind an IPv4 address. -/
theorem strippedNode_v4_port (hD : PrintsIp D showIp) {n : ForwardedNode} {bits : BitVec 32}
    (hip : n.ip = .v4 bits) :
    strippedNode (n.text showIp) =
      String.ofList ((showIp (.v4 bits)).toList ++ n.portText) := by
  have hall : ∀ c ∈ (showIp (.v4 bits)).toList ++ n.portText, Untrimmed c := by
    intro c hc
    exact (List.mem_append.mp hc).elim (untrimmed_of_show hD _ c) (portText_spec n c)
  have hinner : n.inner showIp = (showIp (.v4 bits)).toList ++ n.portText := by
    unfold ForwardedNode.inner
    rw [hip]
    rfl
  unfold strippedNode
  rw [trimMatches_quotes hD, hinner, trimMatches_of_not_mem fun hmem => (hall _ hmem).not_open rfl,
    trimMatches_of_not_mem fun hmem => (hall _ hmem).not_close rfl]

/-- A port behind the brackets keeps the closing one from being trimmed. -/
theorem strippedNode_v6_port (hD : PrintsIp D showIp) {n : ForwardedNode} {bits : BitVec 128}
    (hip : n.ip = .v6 bits) (hport : n.portText ≠ []) :
    strippedNode (n.text showIp) =
      String.ofList ((showIp (.v6 bits)).toList ++ ']' :: n.portText) := by
  have hshow := untrimmed_of_show hD (.v6 bits)
  have hinner : n.inner showIp =
      ['['] ++ ((showIp (.v6 bits)).toList ++ ']' :: n.portText) ++ [] := by
    unfold ForwardedNode.inner
    rw [hip, List.append_nil]
    show '[' :: ((showIp (.v6 bits)).toList ++ [']']) ++ n.portText = _
    simp
  have hopen : '[' ∉ (showIp (.v6 bits)).toList ++ ']' :: n.portText := by
    intro hmem
    rcases List.mem_append.mp hmem with hmem | hmem
    · exact (hshow _ hmem).not_open rfl
    · rcases List.mem_cons.mp hmem with heq | hmem
      · exact absurd heq (by decide)
      · exact (portText_spec n _ hmem).not_open rfl
  unfold strippedNode
  rw [trimMatches_quotes hD, hinner, trimMatches_around (by simp) (by simp) hopen,
    trimMatches_self]
  · intro c hc
    rw [List.head?_append_of_ne_nil _ (show_ne_nil hD _)] at hc
    exact (hshow c (List.mem_of_mem_head? hc)).not_close
  · intro c hc
    rw [List.getLast?_append_of_ne_nil _ (List.cons_ne_nil _ _), List.getLast?_cons_of_ne_nil hport]
      at hc
    exact (portText_spec n c (List.mem_of_getLast? hc)).not_close

/-- With a port it is no address: a colon comes after the points, or a bracket is left. -/
theorem parse_strippedNode_of_port (hD : PrintsIp D showIp) {n : ForwardedNode}
    {port : { l : List Char // IsNodePort l }} (h : n.port = some port) :
    D.parseIpAddr (strippedNode (n.text showIp)) = none := by
  have hport : n.portText = ':' :: port.val := by
    unfold ForwardedNode.portText
    rw [h]
  cases hparse : D.parseIpAddr (strippedNode (n.text showIp)) with
  | none => rfl
  | some ip =>
    exfalso
    cases hip : n.ip with
    | v4 bits =>
      rw [strippedNode_v4_port hD hip] at hparse
      obtain ⟨before, after, hdot⟩ := List.append_of_mem (hD.v4_dotted bits)
      have hsplit : (String.ofList ((showIp (.v4 bits)).toList ++ n.portText)).toList =
          before ++ '.' :: (after ++ n.portText) := by
        rw [String.toList_ofList, hdot, List.append_assoc, List.cons_append]
      apply hD.no_colon_after_dot _ ip before _ hparse hsplit
      rw [hport]
      exact List.mem_append_right _ List.mem_cons_self
    | v6 bits =>
      have hne : n.portText ≠ [] := by
        rw [hport]
        exact List.cons_ne_nil _ _
      rw [strippedNode_v6_port hD hip hne] at hparse
      have hbracket : ']' ∈
          (String.ofList ((showIp (.v6 bits)).toList ++ ']' :: n.portText)).toList := by
        rw [String.toList_ofList]
        exact List.mem_append_right _ List.mem_cons_self
      exact (untrimmed_of_address (hD.chars _ ip hparse _ hbracket)).not_close rfl

end Node

/-! ## The whole header -/

section Header

variable {D : Deps} {showIp : IpAddr → String}

/-- The parameters one by one: only `for` can give an address. -/
theorem findSome?_params (D : Deps) (hD : PrintsIp D showIp) (h : ForwardedHeader) :
    ((h.params showIp).map String.ofList).findSome? (Auth.forwardedPart D) =
      D.parseIpAddr (strippedNode (h.node.text showIp)) := by
  have hothers : ∀ ps : List OtherParam,
      ((ps.map OtherParam.text).map String.ofList).findSome? (Auth.forwardedPart D) = none := by
    intro ps
    rw [List.findSome?_eq_none_iff]
    intro s hs
    obtain ⟨text, htext, rfl⟩ := List.mem_map.mp hs
    obtain ⟨p, -, rfl⟩ := List.mem_map.mp htext
    exact forwardedPart_other D p
  have hfor : Auth.forwardedPart D (String.ofList (h.forText showIp)) =
      D.parseIpAddr (strippedNode (h.node.text showIp)) :=
    forwardedPart_for D h.left_blank h.right_blank h.for_name
      fun c hc => (text_spec hD h.node c hc).not_whitespace
  unfold ForwardedHeader.params
  rw [List.map_append, List.map_cons, List.findSome?_append, hothers, Option.none_or,
    List.findSome?_cons, hfor, hothers]
  cases D.parseIpAddr (strippedNode (h.node.text showIp)) with
  | none => rfl
  | some ip => rfl

theorem parseForwardedFor_firstItem (D : Deps) (headers : HeaderMap) :
    Auth.parseForwardedFor D headers =
      ((headers.getStr "forwarded").bind fun value => (split value ',').head?).bind
        fun firstItem => (split firstItem ';').findSome? (Auth.forwardedPart D) :=
  (Option.bind_assoc ..).symm

/-- A header that is text is read as its node; any other counts as absent. -/
theorem parseForwardedFor_eq (hD : PrintsIp D showIp) (h : ForwardedHeader) {headers : HeaderMap}
    (hvalue : headers.lookup "forwarded" = some (h.value showIp)) :
    (IsHeaderText (h.value showIp) → Auth.parseForwardedFor D headers =
        D.parseIpAddr (strippedNode (h.node.text showIp))) ∧
      (¬IsHeaderText (h.value showIp) → Auth.parseForwardedFor D headers = none) := by
  have hstr : headers.getStr "forwarded" = HeaderMap.toStr (h.value showIp) := by
    unfold HeaderMap.getStr
    rw [hvalue, Option.bind_some]
  constructor
  · intro htext
    have hchars : (h.value showIp).map (fun b => Char.ofNat b.toNat) =
        h.element showIp ++ h.furtherBytes.map fun b => Char.ofNat b.toNat := by
      unfold ForwardedHeader.value
      rw [List.map_append, map_asciiBytes fun c hc => (element_spec hD h c hc).1]
    have hrest : h.furtherBytes.map (fun b => Char.ofNat b.toNat) = [] ∨
        ∃ tail, h.furtherBytes.map (fun b => Char.ofNat b.toNat) = ',' :: tail := by
      unfold ForwardedHeader.furtherBytes
      cases h.further with
      | none => exact Or.inl rfl
      | some bytes => exact Or.inr ⟨_, rfl⟩
    have hcomma : ',' ∉ h.element showIp := fun hmem => (element_spec hD h _ hmem).2 rfl
    have hparams : h.params showIp ≠ [] := by
      intro hnil
      exact List.cons_ne_nil _ _ (List.append_eq_nil_iff.mp hnil).2
    have hsplit : split (String.ofList (h.element showIp)) ';' =
        (h.params showIp).map String.ofList :=
      split_intercalate (fun param hparam hmem =>
        (params_spec hD h param hparam _ hmem).not_semicolon rfl) hparams
    rw [parseForwardedFor_firstItem, hstr, toStr_eq_some htext, hchars, Option.bind_some,
      head?_split hcomma hrest, Option.bind_some, hsplit]
    exact findSome?_params D hD h
  · intro htext
    rw [parseForwardedFor_firstItem, hstr, toStr_eq_none htext, Option.bind_none, Option.bind_none]

end Header

/-! ## The slice does not panic -/

/-- `to_ascii_lowercase` changes no length, so the slice begins where the value does. -/
theorem sliceTail_eq {part addrPart : String}
    (h : stripPrefix (toAsciiLowercase part) "for=" = some addrPart) :
    Auth.sliceTail part addrPart =
      some (String.ofList (part.toList.drop (part.length - addrPart.length))) := by
  rw [stripPrefix_eq_some, ← String.toList_inj, String.toList_append] at h
  unfold toAsciiLowercase at h
  rw [String.toList_ofList] at h
  obtain ⟨before, after, hchars, -, hafter⟩ := List.map_eq_append_iff.mp h
  have hpart : part = String.ofList (before ++ after) := by
    rw [← hchars, String.ofList_toList]
  have hlen : addrPart.length = after.length := by
    rw [← String.length_toList, ← hafter, List.length_map]
  have hsize : addrPart.utf8ByteSize = String.utf8Len after := by
    rw [← String.ofList_toList (s := addrPart), String.utf8ByteSize_ofList, ← hafter,
      utf8Len_map_toLower]
  have htotal : part.utf8ByteSize = String.utf8Len before + String.utf8Len after := by
    rw [hpart, String.utf8ByteSize_ofList, String.utf8Len_append]
  have hdrop : part.toList.drop (part.length - addrPart.length) = after := by
    rw [hlen, hpart, String.length_ofList, List.length_append, Nat.add_sub_cancel,
      String.toList_ofList, List.drop_left]
  have hfits : ¬String.utf8Len before + String.utf8Len after < String.utf8Len after := by omega
  unfold Auth.sliceTail sliceFrom
  rw [hdrop, htotal, hsize, if_neg hfits, Nat.add_sub_cancel, hchars, sliceFromChars_append]
  rfl

theorem forwardedPartSliced_eq (D : Deps) (part : String) :
    Auth.forwardedPartSliced D part = some (Auth.forwardedPart D part) := by
  unfold Auth.forwardedPartSliced Auth.forwardedPart
  cases hstrip : stripPrefix (toAsciiLowercase (trim part)) "for=" with
  | none => simp only [hstrip, Option.bind_none]
  | some addrPart => simp only [hstrip, sliceTail_eq hstrip, Option.map_some, Option.bind_some]

theorem forwardedPartsSliced_eq (D : Deps) (parts : List String) :
    Auth.forwardedPartsSliced D parts = some (parts.findSome? (Auth.forwardedPart D)) := by
  induction parts with
  | nil => rfl
  | cons part parts ih =>
    unfold Auth.forwardedPartsSliced
    rw [forwardedPartSliced_eq, List.findSome?_cons]
    cases Auth.forwardedPart D part with
    | none => exact ih
    | some ip => rfl

theorem parseForwardedForSliced_eq (D : Deps) (headers : HeaderMap) :
    Auth.parseForwardedForSliced D headers = some (Auth.parseForwardedFor D headers) := by
  rw [parseForwardedFor_firstItem]
  unfold Auth.parseForwardedForSliced
  cases (headers.getStr "forwarded").bind fun value => (split value ',').head? with
  | none => rfl
  | some firstItem => exact forwardedPartsSliced_eq D _

/-! ## The client IP -/

section Resolve

variable {D : Deps} {parts : Parts} {peer : IpAddr} {cidrs : List String}

theorem resolveClientIp_of_forwarded {ip : IpAddr} (htrusted : Auth.ipInCidrs D peer cidrs = true)
    (hparse : Auth.parseForwardedFor D parts.headers = some ip) :
    Auth.resolveClientIp D parts peer cidrs = ip := by
  unfold Auth.resolveClientIp
  rw [htrusted, hparse]
  rfl

/-- Where `Forwarded` gives no address, the first entry of `X-Forwarded-For` does. -/
theorem resolveClientIp_of_xForwardedFor {showIp : IpAddr → String} (hD : PrintsIp D showIp)
    {ip : IpAddr} (htrusted : Auth.ipInCidrs D peer cidrs = true)
    (hparse : Auth.parseForwardedFor D parts.headers = none)
    (hheader : parts.headers.lookup "x-forwarded-for" = some (asciiBytes (showIp ip))) :
    Auth.resolveClientIp D parts peer cidrs = ip := by
  have hshow := untrimmed_of_show hD ip
  have hchars : ∀ c ∈ (showIp ip).toList, HeaderChar c :=
    fun c hc => headerChar_of_inside (hshow c hc).toInside
  have hbytes : asciiBytes (showIp ip) = asciiBytes (String.ofList (showIp ip).toList) := by
    rw [String.ofList_toList]
  have hstr : parts.headers.getStr "x-forwarded-for" = some (showIp ip) := by
    unfold HeaderMap.getStr
    rw [hheader, Option.bind_some, hbytes, toStr_eq_some (isHeaderText_asciiBytes hchars),
      map_asciiBytes hchars, String.ofList_toList]
  have hsplit : split (showIp ip) ',' = [showIp ip] := by
    have hnot : ',' ∉ (showIp ip).toList := fun hmem => (hshow _ hmem).not_comma rfl
    have h := split_of_not_mem hnot
    rwa [String.ofList_toList] at h
  have htrim : trim (showIp ip) = showIp ip := by
    unfold trim
    rw [trimChars_self, String.ofList_toList]
    · exact fun c hc => (hshow c (List.mem_of_mem_head? hc)).toInside.not_whitespace
    · exact fun c hc => (hshow c (List.mem_of_getLast? hc)).toInside.not_whitespace
  unfold Auth.resolveClientIp
  rw [htrusted, hparse, hstr, Option.bind_some, hsplit, List.head?_cons, Option.bind_some, htrim,
    hD.parse_show]
  rfl

end Resolve

end ForwardedFor

open ForwardedFor

/-- `Forwarded` decides, whatever `X-Forwarded-For` says, exactly when its node has no
port and the further elements are visible ASCII; and the slice never panics. -/
theorem forwarded_decides_iff {D : Deps} {showIp : IpAddr → String} {security : SecurityConfig}
    {peer : IpAddr} (hD : PrintsIp D showIp) (hproxy : security.trustProxyHeaders = true)
    (htrusted : Auth.ipInCidrs D peer security.trustedSourceCidrs = true) (h : ForwardedHeader) :
    ((∀ parts, Auth.resolvePeerIp parts = peer →
          parts.headers.lookup "forwarded" = some (h.value showIp) →
          Auth.clientIp D security parts = h.node.ip) ↔
        h.node.port = none ∧ ∀ bytes ∈ h.further, IsHeaderText bytes) ∧
      ∀ headers, Auth.parseForwardedForSliced D headers =
        some (Auth.parseForwardedFor D headers) := by
  have hclient : ∀ parts, Auth.resolvePeerIp parts = peer → Auth.clientIp D security parts =
      Auth.resolveClientIp D parts peer security.trustedSourceCidrs := by
    intro parts hpeer
    unfold Auth.clientIp
    rw [if_pos hproxy, hpeer]
  refine ⟨⟨?_, ?_⟩, parseForwardedForSliced_eq D⟩
  · intro hdecides
    -- a request that also names another address
    obtain ⟨other, hother⟩ : ∃ other : IpAddr, other ≠ h.node.ip := by
      by_cases hlocal : h.node.ip = .localhost
      · exact ⟨.v4 0, by rw [hlocal]; decide⟩
      · exact ⟨.localhost, fun heq => hlocal heq.symm⟩
    let parts : Parts :=
      ⟨[("forwarded", h.value showIp), ("x-forwarded-for", asciiBytes (showIp other))], some peer⟩
    have hvalue : parts.headers.lookup "forwarded" = some (h.value showIp) := rfl
    have hparsed : Auth.parseForwardedFor D parts.headers ≠ none := by
      intro hnone
      have hip := hdecides parts rfl hvalue
      rw [hclient parts rfl, resolveClientIp_of_xForwardedFor hD htrusted hnone rfl] at hip
      exact hother hip
    obtain ⟨htext, hnotext⟩ := parseForwardedFor_eq hD h hvalue
    have hreadable : IsHeaderText (h.value showIp) := by
      by_contra hnot
      exact hparsed (hnotext hnot)
    refine ⟨?_, (isHeaderText_value hD h).mp hreadable⟩
    cases hport : h.node.port with
    | none => rfl
    | some port =>
      rw [htext hreadable, parse_strippedNode_of_port hD hport] at hparsed
      exact absurd rfl hparsed
  · rintro ⟨hport, hfurther⟩ parts hpeer hvalue
    have hparse := (parseForwardedFor_eq hD h hvalue).1 ((isHeaderText_value hD h).mpr hfurther)
    rw [strippedNode_of_no_port hD hport, hD.parse_show] at hparse
    rw [hclient parts hpeer]
    exact resolveClientIp_of_forwarded htrusted hparse

namespace ForwardedFor

/-- `proto=https`, after a space. -/
def protoParam : OtherParam where
  left := [' ']
  name := "proto".toList
  value := "https".toList
  right := []
  left_blank := by
    intro c hc
    exact Or.inl (List.mem_singleton.mp hc)
  name_token := ⟨by decide, List.all_eq_true.mp (by decide)⟩
  name_other := by decide
  value_token := ⟨by decide, List.all_eq_true.mp (by decide)⟩
  right_blank := by simp [IsBlank]

/-- An IPv6 address in quoted brackets, another parameter and another proxy. -/
def v6Header : ForwardedHeader where
  before := []
  left := []
  forName := "For".toList
  node := ⟨.v6 0x20010db8000100020003000400050006#128, none, true, fun _ => rfl⟩
  right := []
  after := [protoParam]
  further := some (asciiBytes " for=unknown")
  left_blank := by simp [IsBlank]
  for_name := by decide
  right_blank := by simp [IsBlank]

/-- An IPv4 address with a port, as RFC 7239 writes it. -/
def portHeader : ForwardedHeader where
  before := []
  left := []
  forName := "for".toList
  node := ⟨.v4 0xc000022b#32, some ⟨"47011".toList, by
    exact Or.inl ⟨by decide, by decide, List.all_eq_true.mp (by decide)⟩⟩, true, fun _ => rfl⟩
  right := []
  after := []
  further := none
  left_blank := by simp [IsBlank]
  for_name := by decide
  right_blank := by simp [IsBlank]

/-- A request over the trusted proxy that also names 10.0.0.7. -/
def spoofingParts (value : List UInt8) : Parts where
  headers := [("forwarded", value), ("x-forwarded-for", asciiBytes "10.0.0.7")]
  peer := some .localhost

end ForwardedFor

theorem forwarded_decides_v6 :
    v6Header.value fieldText =
        asciiBytes "For=\"[2001:db8:1:2:3:4:5:6]\"; proto=https, for=unknown" ∧
      Auth.clientIp fieldDeps gateConfig.security (spoofingParts (v6Header.value fieldText)) =
        .v6 0x20010db8000100020003000400050006#128 := by
  have hproxy : gateConfig.security.trustProxyHeaders = true := rfl
  have htrusted : Auth.ipInCidrs fieldDeps .localhost gateConfig.security.trustedSourceCidrs =
      true := by decide
  have hiff := forwarded_decides_iff fieldDeps_printsIp hproxy htrusted v6Header
  have hfurther : ∀ bytes ∈ v6Header.further, IsHeaderText bytes := by
    intro bytes hbytes
    obtain rfl := Option.some.inj hbytes
    decide
  exact ⟨by decide +kernel, hiff.1.mpr ⟨rfl, hfurther⟩ _ rfl rfl⟩

/-- RFC 7239's own form of a node with a port is passed over for `X-Forwarded-For`. -/
theorem forwarded_port_passed_over :
    PrintsIp fieldDeps fieldText ∧
      Auth.ipInCidrs fieldDeps .localhost gateConfig.security.trustedSourceCidrs = true ∧
      portHeader.value fieldText = asciiBytes "for=\"192.0.2.43:47011\"" ∧
      Auth.clientIp fieldDeps gateConfig.security (spoofingParts (portHeader.value fieldText)) =
        .v4 0x0a000007#32 ∧
      Auth.clientIp fieldDeps gateConfig.security (spoofingParts (portHeader.value fieldText)) ≠
        portHeader.node.ip :=
  ⟨fieldDeps_printsIp, by decide, by decide +kernel, by decide +kernel, by decide +kernel⟩

end HttpSmtpRele
