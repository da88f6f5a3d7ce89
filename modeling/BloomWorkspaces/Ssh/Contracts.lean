import BloomWorkspaces.Agent.FirecrackerRuntime
import BloomWorkspaces.Library.JsNumber

/-!
# Contracts of the SSH leases

The checks and the normal forms of what a lease is asked for. A failed check throws an `Error` with a
message.
-/

namespace Bloom

def maxSshLeaseMs : ℤ := 2 * 60 * 60000

def defaultSshLeaseMs : ℤ := 15 * 60000

inductive SshAccessMode
  | shell
  | nfs
  deriving DecidableEq, Repr

def SshAccessMode.text : SshAccessMode → String
  | .shell => "shell"
  | .nfs => "nfs"

inductive PrivateSshEndpoint
  | unix (path : String)
  | tcp (host : String) (port : JsNumber)
  deriving DecidableEq, Repr

/-- `toLowerCase` of an ASCII text. -/
def lowerCase (value : String) : String := String.ofList (Ascii.toLower value.toList)

def normalizeWorkspaceId (value : String) : Except String String :=
  if isWorkspaceId value then .ok (lowerCase value) else .error "Invalid workspace id"

/-- `^0x[0-9a-f]{40}$`, in either case. -/
def isWallet (value : String) : Bool :=
  value.toList.length = 42 && (value.toList.take 2 = ['0', 'x'] || value.toList.take 2 = ['0', 'X']) &&
    (value.toList.drop 2).all Ascii.isHexDigit

def normalizeWallet (value : String) : Except String String :=
  if isWallet value then .ok (lowerCase value) else .error "Invalid wallet address"

def normalizeAccessMode (value : String) : Except String SshAccessMode :=
  if value = "shell" then .ok .shell
  else if value = "nfs" then .ok .nfs
  else .error "Invalid SSH access mode"

/-- The principal of a certificate; `walletDigest` is the hexadecimal digest of a wallet. -/
def workspacePrincipal (walletDigest : String → String) (workspaceId wallet : String)
    (mode : SshAccessMode) : Except String String := do
  let id ← normalizeWorkspaceId workspaceId
  let owner ← normalizeWallet wallet
  return "bloom-" ++ mode.text ++ "-" ++ id ++ "-w-" ++ String.ofList ((walletDigest owner).toList.take 32)

def assertPort (value : JsNumber) (label : String) : Except String ℤ :=
  match value.safeInteger with
  | none => .error ("Invalid " ++ label)
  | some n => if n < 1 ∨ 65535 < n then .error ("Invalid " ++ label) else .ok n

/-- The segments of an absolute path: `.` and empty ones are dropped, `..` drops the one before. -/
def resolveSegments : List (List Char) → List (List Char) → List (List Char)
  | done, [] => done
  | done, segment :: rest =>
    if segment = [] ∨ segment = ['.'] then resolveSegments done rest
    else if segment = ['.', '.'] then resolveSegments done.dropLast rest
    else resolveSegments (done ++ [segment]) rest

/-- `path.resolve` of an absolute path. -/
def resolvePath (path : String) : List Char :=
  match resolveSegments [] (path.toList.splitOn '/') with
  | [] => ['/']
  | segments => segments.flatMap fun segment => '/' :: segment

/-- `validateEndpoint`; `socketRoot` is an absolute path. -/
def validateEndpoint (socketRoot : String) (endpoint : PrivateSshEndpoint) :
    Except String PrivateSshEndpoint :=
  match endpoint with
  | .tcp host port => do
    let _ ← assertPort port "private SSH endpoint port"
    if host ≠ "127.0.0.1" ∧ host ≠ "::1" then .error "SSH endpoint must be host-private"
    else .ok (.tcp host port)
  | .unix path =>
    if path.toList.head? ≠ some '/' ∨ '\x00' ∈ path.toList ∨ '\n' ∈ path.toList ∨
        '\r' ∈ path.toList then
      .error "Invalid private SSH socket path"
    else if (resolvePath socketRoot ++ ['/']).isPrefixOf (resolvePath path) then
      .ok (.unix (String.ofList (resolvePath path)))
    else .error "SSH socket escapes the private runtime directory"

end Bloom
