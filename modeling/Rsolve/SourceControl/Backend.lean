import Mathlib.Data.List.Infix
import Rsolve.Core.Coordinates
import Rsolve.Core.GitUrl
import Rsolve.Lib.Checked
import Rsolve.Lib.Segments
import Rsolve.Lib.Splitting
import Rsolve.Lib.Utf8

/-!
# Resolving a Git selector

A selector is resolved from what the remote advertises: the backend asks for the references that
the selector may mean, reads the printed lines, and selects the one that the selector names.
-/
open Checked Framing Segments Splitting Utf8

namespace Rsolve.SourceControl

/-- `GitSelector` — what a revision is asked for by. -/
inductive GitSelector
  | defaultBranch
  | branch (name : String)
  | tag (name : String)
  | rev (revision : String)
deriving DecidableEq

/-- `GitRunnerError`. -/
inductive GitRunnerError
  | executableUnavailable
  | spawn
  | outputTooLarge
  | read
deriving DecidableEq

/-- `GitError`, as far as resolving a selector fails with it. -/
inductive GitError
  | invalidUrl (url : String)
  | sshUnsupported
  | gitExecutableUnavailable
  | selectorInvalid
  | selectorNotFound
  | selectorAmbiguous
  | selectorUnresolvable
  | mutableReferenceChanged
  | credentialRequired
  | credentialRejected
  | transport
  | commandFailed
  | outputTooLarge (operation : String)
deriving DecidableEq

/-- `GitCommand`. -/
structure GitCommand where
  /-- The program. -/
  executable : String
  /-- Its arguments. -/
  args : List String
  /-- The bytes of output that are read. -/
  outputLimit : Nat
deriving DecidableEq

/-- `GitCommandOutput`. -/
structure GitCommandOutput where
  /-- The exit code. -/
  status : Option Int
  /-- The output. -/
  stdout : List UInt8
  /-- The error output. -/
  stderr : List UInt8

/-- `Backend` — the program, and what runs it. -/
structure Backend where
  /-- The program. -/
  executable : String
  /-- `GitCommandRunner::run`. -/
  run : GitCommand → Except GitRunnerError GitCommandOutput
  /-- `null_device`. -/
  nullDevice : String
  /-- `String::from_utf8_lossy`. -/
  fromUtf8Lossy : List UInt8 → String

/-- `MAX_OUTPUT_BYTES`. -/
def maxOutputBytes : Nat := 256 * 1024

/-- `config_args`. -/
def configArgs : List String :=
  ["-c", "protocol.allow=never", "-c", "protocol.https.allow=always"]

/-- `str::contains` with a text. -/
def containsText (text part : String) : Bool := part.toList <:+: text.toList

/-- `classify_command_failure`. -/
def classifyCommandFailure (backend : Backend) (stderr : List UInt8) : GitError :=
  let lower := toAsciiLowercase (backend.fromUtf8Lossy stderr)
  if containsText lower "terminal prompts disabled" || containsText lower "could not read username"
      || containsText lower "authentication required" then .credentialRequired
  else if containsText lower "authentication failed" || containsText lower "permission denied" then
    .credentialRejected
  else if containsText lower "could not resolve" || containsText lower "connection"
      || containsText lower "timed out" || containsText lower "host key"
      || containsText lower "certificate" then .transport
  else .commandFailed

/-- `run_checked`. -/
def runChecked (backend : Backend) (args : List String) (operation : String) (outputLimit : Nat) :
    Except GitError GitCommandOutput :=
  match backend.run ⟨backend.executable, args, outputLimit⟩ with
  | .error .executableUnavailable => .error .gitExecutableUnavailable
  | .error .outputTooLarge => .error (.outputTooLarge operation)
  | .error .spawn => .error .transport
  | .error .read => .error .transport
  | .ok output =>
    if output.status = some 0 then .ok output
    else .error (classifyCommandFailure backend output.stderr)

/-- `validate_url`. -/
def validateUrl (url : NormalizedGitUrl) : Except GitError Unit :=
  let scheme := (splitOnce "://".toList url.text.toList).map (·.1)
  if scheme = some "ssh".toList then .error .sshUnsupported
  else if scheme ≠ some "https".toList then .error (.invalidUrl url.text)
  else .ok ()

/-- `checked_ref_component`. -/
def checkedRefComponent (value : String) : Except GitError String :=
  let text := value.toList
  if text = [] ∨ ['-'] <+: text ∨ ['.'] <+: text ∨ ['.'] <:+ text ∨ ['/'] <+: text
      ∨ ['/'] <:+ text ∨ ".lock".toList <:+ text ∨ "..".toList <:+: text ∨ "@\x7b".toList <:+: text
      ∨ value = "@" ∨ text.any (fun character => character ∈ ['~', '^', ':', '?', '*', '[', '\\'])
      ∨ text.any (fun character =>
        isControl character || isWhitespace character || character == '\x7f') then
    .error .selectorInvalid
  else if (segments '/' value).any fun component =>
      component = "" || component = "." || component = ".." || ['.'] <+: component.toList
        || ['.'] <:+ component.toList || ".lock".toList <:+ component.toList then
    .error .selectorInvalid
  else .ok value

/-- A revision is a reference in full: it starts with `refs/`. -/
def isFullReference (revision : String) : Bool := "refs/".toList <+: revision.toList

/-- `checked_revision`. -/
def checkedRevision (value : String) : Except GitError (Option String) :=
  if (GitCommitId.new value).isOk then .ok none
  else if isFullReference value then do
    let _ ← checkedRefComponent (String.ofList (value.toList.drop 5))
    .ok (some value)
  else do
    let _ ← checkedRefComponent value
    .ok none

/-- `Advertisement`. -/
structure Advertisement where
  /-- The object id. -/
  oid : String
  /-- The reference. -/
  reference : String
deriving DecidableEq

/-- A line without the carriage return at its end. -/
def stripReturn (line : List UInt8) : List UInt8 :=
  if [13] <:+ line then line.dropLast else line

/-- The advertisement of a line, when it has one. -/
def readAdvertisement (raw : List UInt8) : Except GitError (Option Advertisement) :=
  match splitOnce [9] (stripReturn raw) with
  | none => .ok none
  | some (oid, reference) =>
    match fromUtf8 oid, fromUtf8 reference with
    | some oid, some reference =>
      if "ref:".toList <+: oid.toList ∨ reference = "" then .ok none
      else if (GitCommitId.new oid).isOk then .ok (some ⟨oid, reference⟩)
      else .error .selectorUnresolvable
    | _, _ => .error .selectorUnresolvable

/-- `parse_advertisement`. -/
def parseAdvertisement (stdout : List UInt8) : Except GitError (List Advertisement) := do
  let lines ← (stdout.splitOn 10).mapM readAdvertisement
  .ok lines.reduceOption

/-- The arguments of `run_ls_remote`. -/
def lsRemoteArgs (backend : Backend) (url : NormalizedGitUrl) (symref : Bool)
    (exactRefs : List String) : List String :=
  configArgs ++ ["--git-dir", backend.nullDevice, "ls-remote"] ++
    (if symref then ["--symref"] else []) ++ [url.text] ++ exactRefs

/-- `run_ls_remote`. -/
def runLsRemote (backend : Backend) (url : NormalizedGitUrl) (symref : Bool)
    (exactRefs : List String) : Except GitError (List Advertisement) := do
  let output ← runChecked backend (lsRemoteArgs backend url symref exactRefs)
    "remote advertisement" maxOutputBytes
  parseAdvertisement output.stdout

/-- The name of the commit that a tag stands for. -/
def peeledName (reference : String) : String := reference ++ "^{}"

/-- The advertisements of a reference. -/
def advertised (advertisements : List Advertisement) (reference : String) : List Advertisement :=
  advertisements.filter fun item => item.reference = reference

/-- The advertisements of what a reference peels to, or of the reference when there are none. -/
def advertisedPeeled (advertisements : List Advertisement) (reference : String) :
    List Advertisement :=
  let peeled := advertised advertisements (peeledName reference)
  if peeled ≠ [] then peeled else advertised advertisements reference

/-- The commit of the one advertisement that a selector names. -/
def uniqueCommit (references : List Advertisement) : Except GitError GitCommitId :=
  match references with
  | [] => .error .selectorNotFound
  | first :: rest =>
    if rest ≠ [] then
      if rest.any fun item => item.reference = first.reference ∧ item.oid ≠ first.oid then
        .error .mutableReferenceChanged
      else .error .selectorAmbiguous
    else
      match GitCommitId.new first.oid with
      | .ok commit => .ok commit
      | .error _ => .error .selectorUnresolvable

/-- `select_advertised_commit`. -/
def selectAdvertisedCommit (advertisements : List Advertisement) (selector : GitSelector) :
    Except GitError GitCommitId :=
  match selector with
  | .defaultBranch => uniqueCommit (advertised advertisements "HEAD")
  | .branch name => uniqueCommit (advertised advertisements ("refs/heads/" ++ name))
  | .tag name => uniqueCommit (advertisedPeeled advertisements ("refs/tags/" ++ name))
  | .rev revision =>
    match GitCommitId.new revision with
    | .ok commit => .ok commit
    | .error _ =>
      if isFullReference revision then uniqueCommit (advertisedPeeled advertisements revision)
      else
        uniqueCommit (advertised advertisements ("refs/heads/" ++ revision) ++
          advertisedPeeled advertisements ("refs/tags/" ++ revision))

/-- What a selector asks the remote for: whether symbolic references are told, and the patterns. -/
def askedRefs : GitSelector → Except GitError (Bool × List String)
  | .defaultBranch => .ok (true, ["HEAD"])
  | .branch name => do
    let name ← checkedRefComponent name
    .ok (false, ["refs/heads/" ++ name])
  | .tag name => do
    let name ← checkedRefComponent name
    .ok (false, ["refs/tags/" ++ name, peeledName ("refs/tags/" ++ name)])
  | .rev revision => do
    let refspec ← checkedRevision revision
    .ok (false, match refspec with
      | some value => [value]
      | none => ["refs/heads/" ++ revision, "refs/tags/" ++ revision,
          peeledName ("refs/tags/" ++ revision)])

/-- The object id that a selector is. -/
def fullObjectId : GitSelector → Option GitCommitId
  | .rev revision => (GitCommitId.new revision).toOption
  | _ => none

/-- `Backend::resolve`. -/
def resolve (backend : Backend) (url : NormalizedGitUrl) (selector : GitSelector) :
    Except GitError GitCommitId := do
  validateUrl url
  match fullObjectId selector with
  | some commit => .ok commit
  | none => do
    let asked ← askedRefs selector
    let lines ← runLsRemote backend url asked.1 asked.2
    selectAdvertisedCommit lines selector

end Rsolve.SourceControl
