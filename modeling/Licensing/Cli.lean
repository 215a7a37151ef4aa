import Licensing.LogFilter
import Licensing.Service.Start

/-!
# The command line

Three commands: `serve` starts the service, `bundles` shows the registry, and `config check`
checks the settings. Errors are told on the error stream with exit code 1; what is no command
has exit code 2.
-/

namespace Licensing.Cli

/-- A command. -/
inductive Command where
  /-- Start the service. -/
  | serve
  /-- Show the registry of a file, or of the file in the settings. -/
  | bundles (file : Option String) (pretty : Bool)
  /-- Check the settings. -/
  | configCheck
  /-- Show the version. -/
  | version
deriving DecidableEq, Inhabited

/-! ### Arguments -/

/-- The option for a file. -/
def fileOption : String := "--file"

/-- The value of an option that is written with an equals sign. -/
def attached? (option arg : String) : Option String :=
  let mark := (option ++ "=").toList
  if mark.isPrefixOf arg.toList then some (String.ofList (arg.toList.drop mark.length)) else none

/-- An argument can be the value of an option: it is not empty and is no option itself. -/
def isValue (arg : String) : Bool :=
  arg ≠ "" && (arg = "-" || arg.toList.head? ≠ some '-')

/-- The arguments of the command that shows the registry. -/
def readBundles : Option String → Bool → List String → Option Command
  | file, pretty, [] => some (.bundles file pretty)
  | file, pretty, ["--"] => some (.bundles file pretty)
  | file, pretty, arg :: args =>
    if arg = "--pretty" then (if pretty then none else readBundles file true args)
    else if arg = fileOption then
      match args with
      | value :: rest =>
        if file.isSome || !isValue value then none else readBundles (some value) pretty rest
      | [] => none
    else match attached? fileOption arg with
      | some value =>
        if file.isSome || value = "" then none else readBundles (some value) pretty args
      | none => none

/-- The command that arguments state. -/
def read : List String → Option Command
  | [] => none
  | ["serve"] | ["serve", "--"] => some .serve
  | ["config", "check"] | ["config", "check", "--"] => some .configCheck
  | "bundles" :: args => readBundles none false args
  | arg :: _ =>
    if arg = "--version" || "-V".toList.isPrefixOf arg.toList then some .version else none

/-! ### Running -/

/-- What the commands find around them. -/
structure World (σ : Type) where
  /-- The files. -/
  files : FileReader
  /-- The variables. -/
  vars : Variables
  /-- Why a port cannot be listened to; none if it can. -/
  bindFailure : Nat → Option String
  /-- The state of the network. -/
  network : σ

/-- What became of a command. -/
inductive Outcome (σ : Type) where
  /-- It is done, with an exit code and texts for both streams. -/
  | exit (code : Nat) (out err : String)
  /-- The service runs. -/
  | running (service : Service.Running σ)

variable {σ : Type}

/-- The name of the program. -/
def programName : String := "entitlements"

/-- A command that has shown a line. -/
def shown (line : String) : Outcome σ :=
  .exit 0 (line ++ "\n") ""

/-- A command that failed. -/
def failed (message : String) : Outcome σ :=
  .exit 1 "" (message ++ "\n")

/-- What is no command. -/
def misused : Outcome σ :=
  .exit 2 "" ""

/-- A bundle as it is shown. -/
def bundleValue (b : Bundle) : Json.Value :=
  .object [("name", .text b.name), ("use_valid_acc_num", .bool b.attributes.useValidAccNum),
    ("use_valid_org_id", .bool b.attributes.useValidOrgId),
    ("use_is_internal", .bool b.attributes.useIsInternal), ("skus", .texts b.skus),
    ("paid_skus", .texts b.paidSkus), ("eval_skus", .texts b.evalSkus)]

/-- The registry as it is shown. -/
def renderBundles (r : Registry) (pretty : Bool) : String :=
  let value := Json.Value.list (r.all.map bundleValue)
  if pretty then value.indented 0 else value.compact

/-- The settings in one line. -/
def summary (s : Settings) : String :=
  "configuration ok: port " ++ toString s.port ++ ", bundles " ++ s.bundlesFile ++ ", ams "
    ++ (if s.accounts.mock then "mock" else s.accounts.host) ++ ", bop "
    ++ (if s.directory.mock then "mock" else "http") ++ ", compliance "
    ++ (if s.screeningHost = "" then "disabled" else "enabled")

/-- The variable with the log filter. -/
def filterVariable : String := "RUST_LOG"

/-- Shows the registry. -/
def runBundles (w : World σ) (s : Settings) (file : Option String) (pretty : Bool) : Outcome σ :=
  match Registry.load w.files (file.getD s.bundlesFile) s.paidSuffix s.allowEmptyBundles with
  | .ok r => shown (renderBundles r pretty)
  | .error e => failed ("bundle load failed: " ++ e.message)

/-- Starts the service. -/
def runServe (w : World σ) (s : Settings) : Outcome σ :=
  let filter := LogFilter.choose (w.vars filterVariable) s.debug
  match LogFilter.flaw? filter with
  | some flaw => failed ("invalid log filter " ++ filter ++ ": " ++ flaw.message)
  | none => match Service.start w.files s w.network with
    | .error e => failed ("service init failed: " ++ e.message)
    | .ok running => match w.bindFailure s.port with
      | some reason =>
        let e := Service.StartError.transport
          ("bind " ++ s.listenAddress ++ " failed: " ++ reason)
        failed ("service failed: " ++ e.message)
      | none => .running running

/-- Runs a command. -/
def runCommand (w : World σ) : Command → Outcome σ
  | .version => shown (programName ++ " " ++ Settings.programVersion)
  | command => match Settings.load w.vars with
    | .error e => failed ("config load failed: " ++ e.message)
    | .ok s => match command with
      | .serve => runServe w s
      | .bundles file pretty => runBundles w s file pretty
      | _ => shown (summary s)

/-- Runs the command that arguments state. -/
def run (w : World σ) (args : List String) : Outcome σ :=
  match read args with
  | some command => runCommand w command
  | none => misused

/-! ### Files -/

/-- The file of a source. -/
def sourceFile? : Option PemSource → Option String
  | some (.file path) => some path
  | _ => none

/-- The files that a command may read. -/
def filesFor (vars : Variables) (args : List String) : List String :=
  match read args, Settings.load vars with
  | some command, .ok s =>
    let named := match command with
      | .bundles (some file) _ => [file]
      | _ => []
    named ++ [s.bundlesFile, s.openapiFile]
      ++ [s.tls.ca, s.tls.cert, s.tls.key].filterMap sourceFile?
  | _, _ => []

end Licensing.Cli
