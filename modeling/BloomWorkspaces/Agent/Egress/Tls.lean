import BloomWorkspaces.Agent.Egress.Policy
import BloomWorkspaces.Library.BigEndian
import BloomWorkspaces.Library.Checked

/-!
# Inspecting a TLS ClientHello

`inspectTlsClientHello` on a buffer of bytes. Every read and every slice checks the bounds of its
buffer, so that a read outside would show as `outOfBounds`, and a loop that is not done after as
many turns as there are bytes would show as `outOfFuel`.
-/

namespace Bloom

open BigEndian Checked

inductive TlsErrorCode
  | notTls
  | malformedClientHello
  | clientHelloTooLarge
  | missingSni
  | sniMismatch
  | encryptedClientHelloForbidden
  deriving DecidableEq, Repr

inductive Thrown
  | tls (code : TlsErrorCode) (message : String)
  | policy (error : EgressPolicyError)
  | plain (message : String)
  | outOfBounds
  | outOfFuel
  deriving DecidableEq, Repr

inductive TlsClientHelloInspection
  | incomplete
  | complete (bytesConsumed : ℕ)
  deriving DecidableEq, Repr

def malformed (message : String) : Thrown := .tls .malformedClientHello message

def tooLarge : Thrown := .tls .clientHelloTooLarge "TLS ClientHello exceeds the proxy limit"

def maxTlsRecordPayload : ℕ := 16 * 1024 + 256

/-! ### Reading a buffer -/

def readUIntBE (buffer : List UInt8) (offset width : ℕ) : Except Thrown ℕ :=
  if buffer.length < offset + width then .error .outOfBounds
  else .ok (ofBytes ((buffer.drop offset).take width))

def slice (buffer : List UInt8) (offset length : ℕ) : Except Thrown (List UInt8) :=
  if buffer.length < offset + length then .error .outOfBounds
  else .ok ((buffer.drop offset).take length)

def requireBytes (buffer : List UInt8) (offset length : ℕ) : Except Thrown Unit :=
  rejectIf (buffer.length < offset + length) (malformed "Truncated ClientHello field")

/-- Skip a vector behind its length: the session id, the cipher suites or the compression methods. -/
def skipVector (hello : List UInt8) (offset width : ℕ) (accepts : ℕ → Bool) (message : String) :
    Except Thrown ℕ := do
  requireBytes hello offset width
  let length ← readUIntBE hello offset width
  rejectIf (accepts length = false) (malformed message)
  requireBytes hello (offset + width) length
  return offset + width + length

/-! ### The ClientHello -/

def asciiText (bytes : List UInt8) : List Char := bytes.map fun b => Char.ofNat b.toNat

def parseSingleServerName (domainToASCII : List Char → List Char) (extension : List UInt8) :
    Except Thrown (List Char) := do
  rejectIf (extension.length < 5) (malformed "Malformed server_name extension")
  let listLength ← readUIntBE extension 0 2
  rejectIf (listLength ≠ extension.length - 2) (malformed "Invalid server_name list length")
  let nameType ← readUIntBE extension 2 1
  rejectIf (nameType ≠ 0) (malformed "Only DNS host_name SNI is accepted")
  let nameLength ← readUIntBE extension 3 2
  rejectIf (nameLength < 1 ∨ nameLength ≠ extension.length - 5 ∨ 253 < nameLength)
    (malformed "Invalid SNI hostname length")
  let nameBytes ← slice extension 5 (extension.length - 5)
  rejectIf (∃ b ∈ nameBytes, b.toNat < 0x21 ∨ 0x7e < b.toNat) (malformed "SNI must be ASCII")
  rejectIf ((asciiText nameBytes).getLast? = some '.')
    (malformed "SNI must not have a trailing dot")
  match normalizeHostname domainToASCII (asciiText nameBytes) with
  | .ok hostname => .ok hostname
  | .error _ => .error (malformed "SNI is not a valid public hostname")

/-- What one extension does to the server name found so far. -/
def readExtension (domainToASCII : List Char → List Char) (extensionType : ℕ)
    (extension : List UInt8) (sni : Option (List Char)) : Except Thrown (Option (List Char)) := do
  rejectIf (extensionType = 0xfe0d)
    (.tls .encryptedClientHelloForbidden "Encrypted ClientHello cannot be policy inspected")
  if extensionType = 0 then do
    rejectIf (sni ≠ none) (malformed "Duplicate server_name extension")
    let name ← parseSingleServerName domainToASCII extension
    return some name
  else return sni

/-- The loop over the extensions, which end with the buffer. -/
def readExtensions (domainToASCII : List Char → List Char) (hello : List UInt8) :
    (fuel offset : ℕ) → Option (List Char) → Except Thrown (Option (List Char))
  | 0, _, _ => .error .outOfFuel
  | fuel + 1, offset, sni =>
    if offset < hello.length then do
      requireBytes hello offset 4
      let extensionType ← readUIntBE hello offset 2
      let extensionLength ← readUIntBE hello (offset + 2) 2
      requireBytes hello (offset + 4) extensionLength
      let extension ← slice hello (offset + 4) extensionLength
      let found ← readExtension domainToASCII extensionType extension sni
      readExtensions domainToASCII hello fuel (offset + 4 + extensionLength) found
    else .ok sni

def checkServerName (sni : Option (List Char)) (expectedHostname : List Char) : Except Thrown Unit :=
  match sni with
  | none => .error (.tls .missingSni "TLS ClientHello does not contain SNI")
  | some name =>
    rejectIf (name ≠ expectedHostname)
      (.tls .sniMismatch "TLS SNI does not match CONNECT authority")

def validateClientHello (domainToASCII : List Char → List Char) (hello : List UInt8)
    (expectedHostname : List Char) : Except Thrown Unit := do
  requireBytes hello 0 34
  let legacyVersion ← readUIntBE hello 0 2
  rejectIf (legacyVersion < 0x0301 ∨ 0x0303 < legacyVersion)
    (malformed "Invalid ClientHello legacy version")
  let afterSessionId ← skipVector hello 34 1 (· ≤ 32) "Invalid TLS session id length"
  let afterCipherSuites ← skipVector hello afterSessionId 2 (fun n => 2 ≤ n && n % 2 = 0)
    "Invalid cipher suite vector"
  let afterCompression ← skipVector hello afterCipherSuites 1 (1 ≤ ·)
    "Invalid compression methods vector"
  requireBytes hello afterCompression 2
  let extensionsLength ← readUIntBE hello afterCompression 2
  rejectIf (extensionsLength ≠ hello.length - (afterCompression + 2))
    (malformed "Invalid ClientHello extensions length")
  let sni ← readExtensions domainToASCII hello (hello.length + 1) (afterCompression + 2) none
  checkServerName sni expectedHostname

/-! ### The records -/

/-- One record at the offset: its payload and its end, or `none` where the input is too short. -/
def readRecord (input : List UInt8) (maxBytes recordOffset : ℕ) :
    Except Thrown (Option (List UInt8 × ℕ)) :=
  if input.length < recordOffset + 5 then .ok none
  else do
    let contentType ← readUIntBE input recordOffset 1
    rejectIf (contentType ≠ 22) (.tls .notTls "CONNECT accepts TLS ClientHello records only")
    let recordVersion ← readUIntBE input (recordOffset + 1) 2
    rejectIf (recordVersion < 0x0301 ∨ 0x0304 < recordVersion)
      (.tls .notTls "Invalid TLS record version")
    let recordLength ← readUIntBE input (recordOffset + 3) 2
    rejectIf (recordLength = 0 ∨ maxTlsRecordPayload < recordLength)
      (malformed "Invalid TLS handshake record length")
    rejectIf (maxBytes < recordOffset + 5 + recordLength) tooLarge
    if input.length < recordOffset + 5 + recordLength then .ok none
    else do
      let payload ← slice input (recordOffset + 5) recordLength
      return some (payload, recordOffset + 5 + recordLength)

/-- The handshake bytes received so far: `true` is a valid ClientHello, `false` asks for more. -/
def checkHandshake (domainToASCII : List Char → List Char) (expected : List Char) (maxBytes : ℕ)
    (handshake : List UInt8) : Except Thrown Bool :=
  if handshake.length < 4 then .ok false
  else do
    let messageType ← readUIntBE handshake 0 1
    rejectIf (messageType ≠ 1) (.tls .notTls "First TLS handshake message is not ClientHello")
    let helloLength ← readUIntBE handshake 1 3
    rejectIf (maxBytes < helloLength + 4) tooLarge
    if handshake.length < helloLength + 4 then .ok false
    else do
      rejectIf (handshake.length ≠ helloLength + 4)
        (malformed "Unexpected handshake bytes follow ClientHello")
      let hello ← slice handshake 4 helloLength
      validateClientHello domainToASCII hello expected
      return true

/-- The loop over the records with the handshake bytes of those before `recordOffset`. -/
def inspectRecords (domainToASCII : List Char → List Char) (input : List UInt8)
    (expected : List Char) (maxBytes : ℕ) :
    (fuel recordOffset : ℕ) → List UInt8 → Except Thrown TlsClientHelloInspection
  | 0, _, _ => .error .outOfFuel
  | fuel + 1, recordOffset, handshake => do
    match ← readRecord input maxBytes recordOffset with
    | none => return .incomplete
    | some (payload, recordEnd) =>
      match ← checkHandshake domainToASCII expected maxBytes (handshake ++ payload) with
      | true => return .complete recordEnd
      | false =>
        inspectRecords domainToASCII input expected maxBytes fuel recordEnd (handshake ++ payload)

def inspectTlsClientHello (domainToASCII : List Char → List Char) (input : List UInt8)
    (expectedHostname : List Char) (maxBytes : JsNumber) :
    Except Thrown TlsClientHelloInspection :=
  match maxBytes with
  | none => .error (.plain "maxBytes must be an integer of at least 256")
  | some limit =>
    if limit < 256 ∨ 2 ^ 53 ≤ limit then
      .error (.plain "maxBytes must be an integer of at least 256")
    else if limit < input.length then .error tooLarge
    else
      match normalizeHostname domainToASCII expectedHostname with
      | .error failure => .error (.policy failure)
      | .ok expected =>
        inspectRecords domainToASCII input expected limit.toNat (input.length + 1) 0 []

end Bloom
