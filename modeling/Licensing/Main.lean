import Licensing.Cli

/-!
# The program

Reads the variables and the files that a command needs, has the command run, and passes on its
texts and its exit code. There is no network here, so a service that is ready to run is told
that it cannot listen.
-/

namespace Licensing.Main

/-- The reason in an error of the file system. -/
def fileError : IO.Error → FileError
  | .inappropriateType .. => .isDirectory
  | _ => .notFound

/-- The content of a file, or why there is none. -/
def readFile (path : String) : IO (Except FileError ByteArray) := do
  try
    return .ok (← IO.FS.readBinFile path)
  catch e => return .error (fileError e)

/-- The variables that the program knows. -/
def variableNames : List String :=
  ["ENT_CERTS_FROM_ENV", "ENT_CA_CERT", "ENT_CERT", "ENT_KEY", "ENT_CA_PATH", "ENT_CERT_PATH",
    "ENT_KEY_PATH", "ENT_PORT", "ENT_SUBS_HOST", "ENT_FEATURES_PATH",
    "ENT_IT_SERVICES_TIMEOUT_SECONDS", "ENT_BUNDLE_INFO_YAML", "ENT_ALLOW_EMPTY_BUNDLES",
    "ENT_OPENAPI_SPEC_PATH", "ENT_AMS_HOST", "ENT_CLIENT_ID", "ENT_CLIENT_SECRET",
    "ENT_TOKEN_URL", "ENT_AMS_MOCK", "ENT_AMS_ACCT_MGMT_11_ERR_MSG", "ENT_BOP_URL",
    "ENT_BOP_CLIENT_ID", "ENT_BOP_TOKEN", "ENT_BOP_ENV", "ENT_BOP_MOCK", "ENT_COMPL_HOST",
    "ENT_PAID_FEATURE_SUFFIX", "ENT_DEBUG", "ENT_ENTITLE_ALL", "ENT_CACHE_TTL_SECONDS",
    "ENT_CACHE_MAX_ENTRIES", "ENT_API_VERSION", "ENT_COMMIT", Cli.filterVariable]

/-- The values of the variables that are set. -/
def readVariables : IO (List (String × String)) :=
  variableNames.filterMapM fun name ↦ do
    return (← IO.getEnv name).map (name, ·)

/-- Runs the command that arguments state. -/
def run (args : List String) : IO UInt32 := do
  let values ← readVariables
  let vars : Variables := fun key ↦ values.lookup key
  let contents ← (Cli.filesFor vars args).mapM fun path ↦ do
    return (path, ← readFile path)
  let files : FileReader := fun path ↦ (contents.lookup path).getD (.error .notFound)
  let world : Cli.World Unit :=
    ⟨files, vars, fun _ ↦ some "Function not implemented (os error 38)", ()⟩
  match Cli.run world args with
  | .exit code out err =>
    (← IO.getStdout).putStr out
    (← IO.getStderr).putStr err
    return UInt32.ofNat code
  | .running _ => return 0

end Licensing.Main

/-- The program. -/
def main (args : List String) : IO UInt32 :=
  Licensing.Main.run args
