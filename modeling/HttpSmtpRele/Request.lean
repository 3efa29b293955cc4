import HttpSmtpRele.Config

/-!
# Requests, messages and the third-party parsers

The DTOs of `validation.rs`, the HTTP request parts the extractors read, and the
mail objects built from them.  `Deps` collects the functions of other crates the
relay calls; `LettreLaws` is what it relies on for building a message.
-/

namespace HttpSmtpRele

/-! ## JSON values (`serde_json::Value`) -/

inductive Json
  | null
  | bool (b : Bool)
  | number (text : String)
  | string (s : String)
  | array (items : List Json)
  | object (fields : List (String × Json))

namespace Json

/-- `Value::get` on an object. -/
def get (key : String) : Json → Option Json
  | object fields => fields.lookup key
  | _ => none

def asStr : Json → Option String
  | string s => some s
  | _ => none

end Json

/-! ## The request DTO -/

structure AttachmentSpec where
  filename : String
  contentType : String
  /-- base64 -/
  data : String

/-- A recipient field holds one string or an array; both arrive as a list.
`toAddrs` is the field `to`, which is a keyword here. -/
structure MailRequest where
  toAddrs : List String
  subject : String
  body : String
  fromName : Option String
  replyTo : Option (List String)
  bodyHtml : Option String
  cc : Option (List String)
  attachments : Option (List AttachmentSpec)
  metadata : Option Json

structure ValidatedAttachment where
  filename : String
  contentType : String
  decoded : List UInt8
  deriving DecidableEq

structure ValidatedMailRequest where
  toAddrs : List String
  subject : String
  body : String
  fromName : Option String
  replyTo : List String
  bodyHtml : Option String
  cc : List String
  attachments : List ValidatedAttachment
  clientRequestId : Option String
  deriving DecidableEq

/-! ## HTTP request parts -/

inductive IpAddr
  | v4 (bits : BitVec 32)
  | v6 (bits : BitVec 128)
  deriving DecidableEq

/-- `Ipv4Addr::LOCALHOST`. -/
def IpAddr.localhost : IpAddr := .v4 0x7f000001#32

/-- Header names in lower case with their values as bytes; `get` takes the first. -/
abbrev HeaderMap := List (String × List UInt8)

namespace HeaderMap

/-- `HeaderValue::to_str`: visible ASCII and tab only. -/
def toStr (value : List UInt8) : Option String :=
  if value.all fun b => (32 ≤ b && b < 127) || b == 9 then
    some (String.ofList (value.map fun b => Char.ofNat b.toNat))
  else none

/-- `headers.get(name).and_then(|v| v.to_str().ok())`. -/
def getStr (headers : HeaderMap) (name : String) : Option String :=
  (headers.lookup name).bind toStr

end HeaderMap

structure Parts where
  headers : HeaderMap
  /-- `ConnectInfo`, absent in tests -/
  peer : Option IpAddr

/-- `AuthContext`: proof of authentication; it carries the key's id, not the key. -/
structure AuthContext where
  keyId : String
  clientIp : IpAddr
  keyRateLimitPerMin : Option Nat
  keyBurst : Nat
  deriving DecidableEq

/-! ## Mail objects (`lettre`) -/

structure Address where
  serialized : String
  deriving DecidableEq

structure Mailbox where
  name : Option String
  email : Address
  deriving DecidableEq

structure Envelope where
  reversePath : Option Address
  forwardPath : List Address
  deriving DecidableEq

/-- The headers set on a `MessageBuilder`; adding a mailbox appends it. -/
structure MessageBuilder where
  sender : List Mailbox := []
  toAddrs : List Mailbox := []
  cc : List Mailbox := []
  bcc : List Mailbox := []
  replyTo : List Mailbox := []
  subject : Option String := none
  deriving DecidableEq

namespace MessageBuilder

def addTo (b : MessageBuilder) (m : Mailbox) : MessageBuilder :=
  { b with toAddrs := b.toAddrs ++ [m] }

def addCc (b : MessageBuilder) (m : Mailbox) : MessageBuilder := { b with cc := b.cc ++ [m] }

def addReplyTo (b : MessageBuilder) (m : Mailbox) : MessageBuilder :=
  { b with replyTo := b.replyTo ++ [m] }

end MessageBuilder

inductive MailPart
  | plain (body : String)
  | html (body : String)
  | attachment (filename : String) (contentType : String) (body : List UInt8)
  | alternative (parts : List MailPart)
  | mixed (parts : List MailPart)

structure Message where
  envelope : Envelope
  headers : MessageBuilder
  content : MailPart

/-! ## Third-party parsers -/

structure Deps where
  caseTable : RustStr.CaseTable
  /-- `str::parse::<lettre::Address>` -/
  parseAddress : String → Option Address
  /-- `str::parse::<lettre::message::Mailbox>` -/
  parseMailbox : String → Option Mailbox
  /-- whether `str::parse::<ContentType>` accepts -/
  parseContentType : String → Bool
  /-- the envelope `MessageBuilder` derives from its headers -/
  envelope : MessageBuilder → Option Envelope
  /-- `base64::engine::general_purpose::STANDARD.decode` -/
  decodeBase64 : String → Option (List UInt8)
  /-- `serde_json::from_slice::<MailRequest>` -/
  parseMailRequest : List UInt8 → Option MailRequest
  /-- whether `str::parse::<SocketAddr>` accepts -/
  parseSocketAddr : String → Bool
  parseIpAddr : String → Option IpAddr
  /-- `str::parse::<IpNet>`, as the addresses the network contains -/
  parseIpNet : String → Option (IpAddr → Bool)

/-- What the relay relies on when it re-parses validated addresses. -/
structure LettreLaws (D : Deps) : Prop where
  mailbox_email : ∀ s a m, D.parseAddress s = some a → D.parseMailbox s = some m → m.email = a
  envelope_forward : ∀ b e, D.envelope b = some e →
    e.forwardPath = (b.toAddrs ++ b.cc ++ b.bcc).map Mailbox.email

/-! ## The parsers on plain ASCII input

Enough of the parsers to run the model: an address is any text with an `@`, a
mailbox is a bare address, and nothing is attached. -/

namespace Deps

def plainAddress (s : String) : Option Address :=
  if RustStr.containsChar s '@' then some ⟨s⟩ else none

/-- `From` gives the reverse path; without recipients there is no envelope. -/
def plainEnvelope (b : MessageBuilder) : Option Envelope :=
  let recipients := (b.toAddrs ++ b.cc ++ b.bcc).map Mailbox.email
  if recipients.isEmpty then none
  else some { reversePath := b.sender.head?.map Mailbox.email, forwardPath := recipients }

def plain : Deps where
  caseTable := RustStr.asciiTable
  parseAddress := plainAddress
  parseMailbox s := (plainAddress s).map fun a => { name := none, email := a }
  parseContentType s := RustStr.containsChar s '/'
  envelope := plainEnvelope
  decodeBase64 s := if s.isEmpty then some [] else none
  parseMailRequest _ := none
  parseSocketAddr s := RustStr.containsChar s ':'
  parseIpAddr _ := none
  parseIpNet _ := none

theorem plain_lettreLaws : LettreLaws plain where
  mailbox_email := by
    intro s a m ha hm
    obtain ⟨a', ha', rfl⟩ := Option.map_eq_some_iff.mp hm
    exact Option.some.inj (ha'.symm.trans ha)
  envelope_forward := by
    intro b e he
    simp only [plain, plainEnvelope] at he
    split at he
    · cases he
    · cases he
      rfl

end Deps

end HttpSmtpRele
