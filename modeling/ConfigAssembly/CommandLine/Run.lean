import ConfigAssembly.CommandLine.Options
import ConfigAssembly.Configuration
import ConfigAssembly.Document.Load

/-!
# Running the command line

A run registers the plugins of the modules that are asked for, loads the file, builds what it holds,
and tells by its exit code how it went. An error that keeps it from building is handed to the
caller, together with what was reported before.
-/

namespace ConfigAssembly.CommandLine

open ConfigAssembly.Text

/-- Why a module cannot be imported. -/
inductive ImportError where
  | notFound (name : String)
  /-- A module was asked for inside another that holds none. -/
  | noPackage (name parent : String)
  | emptyName
  | relativeName (name : String)
  deriving DecidableEq, Repr

/-- What is wrong, in words. -/
def ImportError.message : ImportError → String
  | .notFound name => "No module named " ++ quoted name
  | .noPackage name parent =>
    "No module named " ++ quoted name ++ "; " ++ quoted parent ++ " is not a package"
  | .emptyName => "Empty module name"
  | .relativeName name =>
    "the 'package' argument is required to perform a relative import for " ++ quoted name

/-- What kept a run from building. -/
inductive RunError where
  | imports (e : ImportError)
  | registration (e : ModuleError)
  | load (e : LoadError)
  | override (e : OverrideError)
  /-- A property cannot be declared. -/
  | property (f : Fault)
  /-- The build of an element handed a fault on. -/
  | raised (f : Fault)
  /-- An option that needs a value was given none. -/
  | valueless (f : Flag)

/-- What is wrong, in words. -/
def RunError.message : RunError → String
  | .imports e => e.message
  | .registration e => e.message
  | .load e => e.message
  | .override e => e.message
  | .property f | .raised f => f.shown
  | .valueless .module => (Fault.missing "list" "startswith").shown
  | .valueless .logLevel => "Level not an integer or a valid string: []"
  | .valueless _ => "stat: path should be string, bytes, os.PathLike or integer, not list"

/-- How a run ended. -/
inductive Ending where
  | help
  | version
  | misuse
  | failed (e : RunError)
  | built (ok : Bool)

/-- What the program calls itself, with its version. -/
def versionText : String := "nodebuild 0.3.0\n"

namespace Ending

/-- The exit code of a run that ended without an error. -/
def exitCode? : Ending → Option Nat
  | .help | .version => some 0
  | .misuse => some 2
  | .failed _ => none
  | .built ok => some (if ok then 0 else 1)

/-- What is printed. -/
def output : Ending → String
  | .version => versionText
  | _ => ""

end Ending

/-- What surrounds a run. -/
structure World where
  files : Files
  /-- The modules that can be imported. -/
  modules : List PluginModule
  environment : Assoc String String

/-- A run that is over. -/
structure Run where
  ending : Ending
  report : Report

/-! ## Modules -/

/-- The name of the module around a module, given the parts of its name in reverse. -/
def parentName (parts : List (List Char)) : String :=
  String.ofList (List.intercalate ['.'] parts.reverse)

/-- Why a module that is none of those given cannot be imported; `parts` are the parts of its name
in reverse. The modules around it are imported first. -/
def importFault (modules : List PluginModule) : List (List Char) → ImportError
  | [] => .emptyName
  | [p] => .notFound (String.ofList p)
  | p :: q :: ps =>
    let parent := parentName (q :: ps)
    if modules.any (·.name == parent) then .noPackage (parentName (p :: q :: ps)) parent
    else importFault modules (q :: ps)

/-- Imports a module by its name. -/
def importModule (modules : List PluginModule) (name : String) : Except ImportError PluginModule :=
  match modules.find? (·.name == name) with
  | some m => .ok m
  | none =>
    if name.isEmpty then .error .emptyName
    else if name.toList.head? == some '.' then .error (.relativeName name)
    else .error (importFault modules (pieces (· == '.') name.toList).reverse)

/-- Registers the plugins of modules one after the other. -/
def registerModules (modules : List PluginModule) : List Given → Registry → Except RunError Registry
  | [], r => .ok r
  | none :: _, _ => .error (.valueless .module)
  | some name :: names, r =>
    match importModule modules name with
    | .error e => .error (.imports e)
    | .ok m =>
      match r.registerModule m none with
      | (.error e, _) => .error (.registration e)
      | (.ok _, r) => registerModules modules names r

/-! ## Building -/

/-- A run that ended without a report. -/
def ended (e : Ending) : Run := ⟨e, ⟨[], []⟩⟩

/-- The summary of a run. -/
def summary (c : Configuration) : Record :=
  .info (c.name.text ++ ": " ++ toString (c.results.filter (·.ok)).length ++
    " element(s) built, " ++
    toString (c.diagnostics.filter (·.isError)).length ++ " error(s)")

/-- Whether a configuration that was built counts as a success. -/
def succeeded (c : Configuration) (strict : Bool) : Bool :=
  c.ok && !(strict && c.diagnostics.any (·.isError))

/-- Builds the elements of a root. -/
def buildRoot (w : World) (r : Registry) (root : LinkedTree String)
    (overrides : Assoc String String) (strict : Bool) : Run :=
  let overrides := overrides.map fun (k, v) => (k, Value.str v)
  match Configuration.make root.node r .standard w.environment overrides with
  | (.error f, log) => ⟨.failed (.property f), ⟨log, []⟩⟩
  | (.ok c, log) =>
    let pass := c.build none
    let c := pass.configuration
    match pass.raised with
    | some f => ⟨.failed (.raised f), ⟨log ++ pass.report.log, pass.report.warnings⟩⟩
    | none =>
      ⟨.built (succeeded c strict),
        ⟨log ++ pass.report.log ++ [summary c], pass.report.warnings⟩⟩

/-- How an override without a value reads. -/
def noOverride : String := "[]"

/-- Loads the file and builds what it holds. -/
def buildFile (w : World) (r : Registry) (config : Given) (i : Invocation) : Run :=
  match config with
  | none => ended (.failed (.valueless .config))
  | some path =>
    match loadFile w.files path with
    | .error e => ended (.failed (.load e))
    | .ok root =>
      match parseOverrides (i.overrides.map (·.getD noOverride)) with
      | .error e => ended (.failed (.override e))
      | .ok overrides => buildRoot w r root overrides i.strict

/-- Does what an invocation asks for. -/
def execute (w : World) (config : Given) (i : Invocation) : Run :=
  match registerModules w.modules i.modules .empty with
  | .error e => ended (.failed e)
  | .ok r =>
    let r := r.freeze
    let names := Record.debug ("Registered plugins: " ++ quotedList r.names)
    let run := buildFile w r config i
    ⟨run.ending, (⟨[names], []⟩ : Report).append run.report⟩

/-- The severity from which on records are shown. -/
def threshold (level : String) : Severity := (Severity.ofLabel? level).getD .info

/-- Runs a command line. The report holds what is shown at the chosen threshold. -/
def run (w : World) (argv : List String) : Run :=
  match Invocation.parse argv with
  | .help => ended .help
  | .version => ended .version
  | .misuse => ended .misuse
  | .run config i =>
    match i.logLevel with
    | none => ended (.failed (.valueless .logLevel))
    | some level =>
      let run := execute w config i
      { run with report := { run.report with log := run.report.log.atLeast (threshold level) } }

end ConfigAssembly.CommandLine
