import Mathlib.Algebra.GroupWithZero.Nat
import HttpSmtpRele.ConfigValidate
import HttpSmtpRele.Lib.Base64
import HttpSmtpRele.SafeRequest

/-!
# The sizes of attachments

The length of the encoded data is checked before it is decoded, so that giant
payloads are not.  Four characters for three bytes, with room for the padding,
reject only what the limit on the decoded size would reject, as long as four
times the limit does not wrap.
-/

namespace HttpSmtpRele

open RustStr Except

/-- What is known of the `STANDARD` engine: canonical padding. -/
structure Base64Laws (D : Deps) : Prop where
  length : ∀ s bytes, D.decodeBase64 s = some bytes →
    s.utf8ByteSize = 4 * ((bytes.length + 2) / 3)
  /-- everything can be sent -/
  text : ∀ bytes, ∃ s, D.decodeBase64 s = some bytes

namespace Validation

/-! ## The check in encoded units -/

/-- Below a quarter of the machine range it is about the decoded size. -/
theorem lt_of_maxEncoded_lt {limit n : Nat} (hlimit : limit < 2 ^ 62)
    (h : maxEncoded limit < 4 * ((n + 2) / 3)) : limit < n := by
  unfold maxEncoded at h
  omega

theorem le_of_le_maxEncoded {limit n : Nat} (h : 4 * ((n + 2) / 3) ≤ maxEncoded limit) :
    n ≤ limit + 8 := by
  unfold maxEncoded at h
  omega

/-- From there on the product wraps, and a size within the limit is rejected. -/
theorem exists_rejected {limit : Nat} (hlow : 2 ^ 62 ≤ limit) (hhigh : limit ≤ tomlMax) :
    ∃ n, n ≤ limit ∧ maxEncoded limit < 4 * ((n + 2) / 3) := by
  refine ⟨3 * (maxEncoded limit / 4 + 1), ?_, ?_⟩
  · unfold maxEncoded
    unfold tomlMax at hhigh
    omega
  · omega

/-! ## The loop -/

variable {D : Deps} {mail : MailConfig}

/-- The data of the attachments, decoded in order. -/
abbrev Decoded (D : Deps) : List AttachmentSpec → List (List UInt8) → Prop :=
  List.Forall₂ fun spec bytes => D.decodeBase64 spec.data = some bytes

/-- The limits on decoded sizes. -/
def WithinLimits (mail : MailConfig) (decoded : List (List UInt8)) : Prop :=
  (∀ bytes ∈ decoded, bytes.length ≤ mail.maxAttachmentBytes) ∧
    ∀ m ∈ mail.maxTotalAttachmentBytes, (decoded.map List.length).sum ≤ m

theorem validateAttachments_isOk {specs : List AttachmentSpec} {decoded : List (List UInt8)}
    (hform : ∀ spec ∈ specs, FormOk spec) (hdecoded : Decoded D specs decoded) {i total : Nat}
    (htotal : ∀ m ∈ mail.maxTotalAttachmentBytes, total ≤ m) :
    (∃ atts, validateAttachments D mail i total specs = .ok atts) ↔
      (∀ spec ∈ specs, spec.data.utf8ByteSize ≤ maxEncoded mail.maxAttachmentBytes) ∧
        (∀ bytes ∈ decoded, bytes.length ≤ mail.maxAttachmentBytes) ∧
        ∀ m ∈ mail.maxTotalAttachmentBytes, total + (decoded.map List.length).sum ≤ m := by
  induction hdecoded generalizing i total with
  | nil =>
    refine ⟨fun _ => ⟨?_, ?_, htotal⟩, fun _ => ⟨[], rfl⟩⟩
    · exact fun spec h => (List.not_mem_nil h).elim
    · exact fun bytes h => (List.not_mem_nil h).elim
  | @cons spec bytes specs decoded hone _ ih =>
    obtain ⟨hspec, hspecs⟩ := List.forall_mem_cons.mp hform
    rw [List.forall_mem_cons, List.forall_mem_cons, List.map_cons, List.sum_cons]
    simp only [validateAttachments, bind_eq_ok_iff, exists_unit, validateAttachment_ok_iff,
      checkTotal_ok, Except.ok.injEq]
    constructor
    · rintro ⟨_, bytes', ⟨-, hlen, hbytes, hsize⟩, hsum, rest, hrest, -⟩
      obtain rfl := Option.some.inj (hone.symm.trans hbytes)
      obtain ⟨hlens, hsizes, hsums⟩ := (ih hspecs hsum).mp ⟨rest, hrest⟩
      refine ⟨⟨hlen, hlens⟩, ⟨hsize, hsizes⟩, fun m hm => ?_⟩
      rw [← Nat.add_assoc]
      exact hsums m hm
    · rintro ⟨⟨hlen, hlens⟩, ⟨hsize, hsizes⟩, hsums⟩
      have hsum : ∀ m ∈ mail.maxTotalAttachmentBytes, total + bytes.length ≤ m :=
        fun m hm => (Nat.add_le_add_left (Nat.le_add_right _ _) total).trans (hsums m hm)
      have hsums' : ∀ m ∈ mail.maxTotalAttachmentBytes,
          total + bytes.length + (decoded.map List.length).sum ≤ m := by
        intro m hm
        rw [Nat.add_assoc]
        exact hsums m hm
      obtain ⟨rest, hrest⟩ := (ih hspecs hsum).mpr ⟨hlens, hsizes, hsums'⟩
      exact ⟨_, bytes, ⟨hspec, hlen, hone, hsize⟩, hsum, rest, hrest, rfl⟩

/-- The check on the length of the data decides nothing that the limits would not. -/
structure ShortcutOnly (D : Deps) (mail : MailConfig) : Prop where
  rejects : ∀ data bytes, D.decodeBase64 data = some bytes →
    maxEncoded mail.maxAttachmentBytes < data.utf8ByteSize →
      mail.maxAttachmentBytes < bytes.length
  decides : ∀ specs decoded, (∀ spec ∈ specs, FormOk spec) → Decoded D specs decoded →
    ((∃ atts, validateAttachments D mail 0 0 specs = .ok atts) ↔ WithinLimits mail decoded)
  bounds : ∀ data bytes, D.decodeBase64 data = some bytes →
    data.utf8ByteSize ≤ maxEncoded mail.maxAttachmentBytes →
      bytes.length ≤ mail.maxAttachmentBytes + 8

theorem shortcutOnly_of_lt (laws : Base64Laws D) (hlimit : mail.maxAttachmentBytes < 2 ^ 62) :
    ShortcutOnly D mail := by
  have hrejects : ∀ data bytes, D.decodeBase64 data = some bytes →
      maxEncoded mail.maxAttachmentBytes < data.utf8ByteSize →
        mail.maxAttachmentBytes < bytes.length := by
    intro data bytes hdecode hlong
    rw [laws.length data bytes hdecode] at hlong
    exact lt_of_maxEncoded_lt hlimit hlong
  refine ⟨hrejects, fun specs decoded hform hdecoded => ?_, fun data bytes hdecode hlen => ?_⟩
  · rw [validateAttachments_isOk hform hdecoded fun m _ => Nat.zero_le m]
    simp only [Nat.zero_add]
    refine ⟨fun h => h.2, fun h => ⟨?_, h⟩⟩
    intro spec hspec
    obtain ⟨bytes, hbytes, hdecode⟩ := exists_of_forall₂ hdecoded hspec
    by_contra hlong
    have hover := hrejects spec.data bytes hdecode (Nat.not_le.mp hlong)
    exact absurd (h.1 bytes hbytes) (Nat.not_le.mpr hover)
  · rw [laws.length data bytes hdecode] at hlen
    exact le_of_le_maxEncoded hlen

end Validation

open Validation in
/-- The shortcut is only a shortcut exactly if four times the limit does not wrap. -/
theorem shortcutOnly_iff {D : Deps} (laws : Base64Laws D) {mail : MailConfig}
    (hfile : mail.maxAttachmentBytes ≤ tomlMax) :
    ShortcutOnly D mail ↔ mail.maxAttachmentBytes < 2 ^ 62 := by
  refine ⟨fun h => ?_, shortcutOnly_of_lt laws⟩
  by_contra hlimit
  obtain ⟨n, hn, hlong⟩ := exists_rejected (Nat.not_lt.mp hlimit) hfile
  obtain ⟨data, hdata⟩ := laws.text (List.replicate n 0)
  have hlength := laws.length data _ hdata
  rw [List.length_replicate] at hlength
  rw [← hlength] at hlong
  have hover := h.rejects data _ hdata hlong
  rw [List.length_replicate] at hover
  omega

def base64Deps : Deps := { Deps.plain with decodeBase64 := Base64.decode }

theorem base64Deps_laws : Base64Laws base64Deps where
  length _ _ h := Base64.utf8ByteSize_of_decode h
  text bytes := ⟨Base64.encode bytes, Base64.decode_encode bytes⟩

theorem shortcutOnly_default : Validation.ShortcutOnly base64Deps richConfig.mail :=
  (shortcutOnly_iff base64Deps_laws (by decide)).mpr (by decide)

/-- A limit of four exbibytes. -/
def hugeLimitConfig : AppConfig :=
  { richConfig with mail := { richConfig.mail with maxAttachmentBytes := 2 ^ 62 } }

def nineBytes : List UInt8 := [97, 116, 116, 97, 99, 104, 109, 101, 110]

def nineBytesAttachment : AttachmentSpec where
  filename := "a.txt"
  contentType := "text/plain"
  data := "YXR0YWNobWVu"

/-- Nine bytes are not let through, since they come as twelve characters. -/
theorem nine_bytes_rejected :
    ConfigValidate.Accepted {} base64Deps hugeLimitConfig ∧ Base64Laws base64Deps ∧
      base64Deps.decodeBase64 nineBytesAttachment.data = some nineBytes ∧
      nineBytes.length ≤ hugeLimitConfig.mail.maxAttachmentBytes ∧
      Validation.validateAttachments base64Deps hugeLimitConfig.mail 0 0 [nineBytesAttachment] =
        .error (.validation "attachments[0].data: encoded size 12 bytes exceeds limit") ∧
      ¬Validation.ShortcutOnly base64Deps hugeLimitConfig.mail := by
  have hdecode : base64Deps.decodeBase64 nineBytesAttachment.data = some nineBytes := by
    decide +kernel
  refine ⟨?_, base64Deps_laws, hdecode, by decide, by decide +kernel, fun hshortcut => ?_⟩
  · unfold ConfigValidate.Accepted
    decide
  · have hover := hshortcut.rejects _ _ hdecode (by decide +kernel)
    revert hover
    decide

end HttpSmtpRele
