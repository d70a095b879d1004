/- source: domain/init/derive.ts
   digest: The project profile that manifests and the directory layout attest to. -/

import Kratos.Initialization.Stack
import Kratos.Initialization.TaskCommands

set_option autoImplicit false

namespace Kratos.Initialization

open Foundation.Collections Foundation.JsonText Foundation.Lines
open Foundation.Paths (segments prefixes isParent)
open Foundation.Ranking Foundation.Regexes Foundation.Text

/-- The manifests whose contents are read rather than whose names are matched. -/
structure ManifestContents where
  packageJson : Option JsString
  makefile : Option JsString
  pyprojectToml : Option JsString
  taskfile : Option ManifestFile
  justfile : Option ManifestFile
  miseToml : Option ManifestFile
  devcontainerJson : Option ManifestFile
  workflows : List ManifestFile
  deriving DecidableEq, Repr

/-- `manifests = {}`. -/
def noManifests : ManifestContents :=
  { packageJson := none, makefile := none, pyprojectToml := none, taskfile := none, justfile := none,
    miseToml := none, devcontainerJson := none, workflows := [] }

def SOURCE_PATH_CANDIDATES : List String := ["src", "lib", "app", "packages"]

def TESTS_PATH_CANDIDATES : List String := ["tests", "test", "spec", "__tests__"]

def CONFIG_PATH_CANDIDATES : List String := ["config", ".config", "etc"]

def PATH_VALUE_LIMIT : Nat := 4

def CENSUS_SHARE_DIVISOR : Nat := 10

/-- The longest convention string the profile schema stores. -/
def CONVENTION_MAX_LENGTH : Nat := 1024

/-- `parts.join(separator)`. -/
def join (separator : JsString) (parts : List JsString) : JsString := separator.intercalate parts

section Layout

structure DirectoryCandidate where
  /-- The project-relative directory path. -/
  path : JsString
  /-- Where the matched name sits in the candidate list. -/
  rank : Nat
  /-- True when the whole path is an entry at the repository root. -/
  root : Bool
  depth : Nat
  /-- Files below it the census could name, however deep. -/
  files : Nat
  deriving DecidableEq, Repr

structure ObservedLayout where
  /-- Every directory the scan passed through. -/
  directories : List JsString
  /-- Each directory once for every file below it the census could name. -/
  credits : List JsString
  deriving DecidableEq, Repr

def ancestors (path : JsString) : List JsString := (prefixes path).dropLast

def observeLayout (toLowerCase : JsString → JsString) (paths : List JsString) : ObservedLayout where
  directories := (paths.flatMap ancestors).eraseDups
  credits := (paths.filter fun path => (languageOfPath toLowerCase path).isSome).flatMap ancestors

/-- `census.get(path) ?? 0`. -/
def ObservedLayout.census (layout : ObservedLayout) (path : JsString) : Nat := layout.credits.count path

/-- A directory enters the candidates under the first name that matches. -/
def consider (layout : ObservedLayout) (candidates : List String) (found : List DirectoryCandidate)
    (place : JsString × Bool) : List DirectoryCandidate :=
  match candidates.findIdx? fun name => js name == basenameOf place.1 with
  | none => found
  | some rank =>
      if found.any fun other => other.path == place.1 then found
      else found ++ [{ path := place.1, rank, root := place.2, depth := depthOf place.1,
                       files := layout.census place.1 }]

/-- Every directory that carries a candidate name, wherever it sits. -/
def candidateDirectories (rootEntries : List JsString) (layout : ObservedLayout) (candidates : List String) :
    List DirectoryCandidate :=
  ((rootEntries.filter fun entry => candidates.any fun name => js name == entry).map (fun entry => (entry, true)) ++
    layout.directories.map fun directory => (directory, !directory.contains (unit '/'))).foldl
      (consider layout candidates) []

/-- Drop a candidate that another one contains. -/
def withoutEnclosed (candidates : List DirectoryCandidate) : List DirectoryCandidate :=
  candidates.filter fun candidate => !candidates.any fun other => isParent other.path candidate.path

/-- The candidate list decides, then the depth, then the path. -/
def byRank : DirectoryCandidate → DirectoryCandidate → Bool :=
  chained (onKey DirectoryCandidate.rank fun left right => decide (left ≤ right))
    (chained (onKey DirectoryCandidate.depth fun left right => decide (left ≤ right))
      (onKey DirectoryCandidate.path textOrder))

/-- Most files first, then the depth, then the path. -/
def byCensus : DirectoryCandidate → DirectoryCandidate → Bool :=
  chained (onKey DirectoryCandidate.files fun left right => decide (right ≤ left))
    (chained (onKey DirectoryCandidate.depth fun left right => decide (left ≤ right))
      (onKey DirectoryCandidate.path textOrder))

def mostFiles (candidates : List DirectoryCandidate) : Nat :=
  candidates.foldl (fun most one => max most one.files) 0

/-- Order the qualifying directories and cut the list where it stops answering. -/
def rankCandidates (candidates : List DirectoryCandidate) : List DirectoryCandidate :=
  let best := mostFiles candidates
  if best = 0 then (candidates.mergeSort byRank).take 1
  else
    ((candidates.filter fun candidate => decide (max 1 (best / CENSUS_SHARE_DIVISOR) ≤ candidate.files)).mergeSort
      byCensus).take PATH_VALUE_LIMIT

def pathToken (candidate : DirectoryCandidate) : JsString :=
  if candidate.root then candidate.path else candidate.path ++ js " (nested)"

def directoryEvidence (tokens : List JsString) : JsString := js "directory:" ++ join (js ", ") tokens

/-- The directories whose tokens fit the evidence, in order, up to the first that does not. -/
def fitting (tokens : List JsString) : List DirectoryCandidate → List DirectoryCandidate
  | [] => []
  | candidate :: rest =>
      if EVIDENCE_MAX_LENGTH < (directoryEvidence (tokens ++ [pathToken candidate])).length then []
      else candidate :: fitting (tokens ++ [pathToken candidate]) rest

/-- Name each directory and say why it qualified. -/
def selectPaths (ranked : List DirectoryCandidate) : Option (Leaf (List JsString)) :=
  let selected := fitting [] ranked
  if selected.isEmpty then none
  else some { value := selected.map DirectoryCandidate.path
              evidence := directoryEvidence (selected.map pathToken) }

structure DerivedPathSlot where
  leaf : Leaf (List JsString)
  /-- The directories the answer names. -/
  directories : List DirectoryCandidate
  deriving DecidableEq, Repr

/-- Whether any directory above the path carries one of the names. -/
def sitsBelow (path : JsString) (names : List String) : Bool :=
  (segments path).dropLast.any fun segment => names.any fun name => js name == segment

def derivePathSlot (rootEntries : List JsString) (layout : ObservedLayout) (candidates notBelow : List String) :
    Option DerivedPathSlot :=
  let found := (candidateDirectories rootEntries layout candidates).filter fun candidate =>
    !sitsBelow candidate.path notBelow
  if found.isEmpty then none
  else
    let ranked := rankCandidates (withoutEnclosed found)
    (selectPaths ranked).map fun leaf =>
      { leaf, directories := ranked.filter fun candidate => leaf.value.contains candidate.path }

/-- `PartialProjectProfile["paths"]`; without any of them the source leaves the group out. -/
structure PathLeaves where
  source : Option (Leaf (List JsString))
  tests : Option (Leaf (List JsString))
  configuration : Option (Leaf (List JsString))
  deriving DecidableEq, Repr

structure DerivedPaths where
  leaves : PathLeaves
  source : List DirectoryCandidate
  tests : List DirectoryCandidate
  deriving DecidableEq, Repr

/-- Derive the source, test and configuration directories from the layout. -/
def derivePaths (rootEntries : List JsString) (layout : ObservedLayout) : DerivedPaths :=
  let source := derivePathSlot rootEntries layout SOURCE_PATH_CANDIDATES TESTS_PATH_CANDIDATES
  let tests := derivePathSlot rootEntries layout TESTS_PATH_CANDIDATES []
  let configuration := derivePathSlot rootEntries layout CONFIG_PATH_CANDIDATES []
  { leaves :=
      { source := source.map DerivedPathSlot.leaf
        tests := tests.map DerivedPathSlot.leaf
        configuration := configuration.map DerivedPathSlot.leaf }
    source := (source.map DerivedPathSlot.directories).getD []
    tests := (tests.map DerivedPathSlot.directories).getD [] }

end Layout

section Commands

inductive PackageManager
  | npm | pnpm | yarn | bun
  deriving DecidableEq, Repr

def PackageManager.text : PackageManager → JsString
  | npm => js "npm"
  | pnpm => js "pnpm"
  | yarn => js "yarn"
  | bun => js "bun"

def PACKAGE_MANAGERS : List PackageManager := [.npm, .pnpm, .yarn, .bun]

def PACKAGE_MANAGER_LOCKFILES : List (String × PackageManager) :=
  [("package-lock.json", .npm), ("npm-shrinkwrap.json", .npm), ("pnpm-lock.yaml", .pnpm), ("yarn.lock", .yarn),
   ("bun.lock", .bun), ("bun.lockb", .bun)]

structure PackageManagerChoice where
  manager : PackageManager
  /-- What decided it, or nothing when npm is the default. -/
  via : Option JsString
  deriving DecidableEq, Repr

/-- What stands before the first `@`. -/
def declaredManager (declared : JsString) : Option PackageManager :=
  PACKAGE_MANAGERS.find? fun known => known.text == declared.takeWhile (· != unit '@')

def lockfileManager (rootEntries : List JsString) : Option PackageManagerChoice :=
  let present := PACKAGE_MANAGER_LOCKFILES.filter fun entry => rootEntries.contains (js entry.1)
  match present with
  | [] => some { manager := .npm, via := none }
  | first :: rest =>
      if rest.any fun entry => decide (entry.2 ≠ first.2) then none
      else some { manager := first.2, via := some (js first.1) }

/-- Which package manager runs the scripts a `package.json` declares. -/
def packageManagerOf (parsed : List (JsString × Json)) (rootEntries : List JsString) :
    Option PackageManagerChoice :=
  match mapGet parsed (js "packageManager") with
  | some (.string declared) =>
      match declaredManager declared with
      | some manager => some { manager, via := some (js "package.json#packageManager") }
      | none => lockfileManager rootEntries
  | _ => lockfileManager rootEntries

/-- The command that runs one declared script under one package manager. -/
def scriptCommand (manager : PackageManager) (script : JsString) : JsString :=
  if decide (manager ≠ .bun) && (script == js "test" || script == js "start") then
    manager.text ++ js " " ++ script
  else manager.text ++ js " run " ++ script

def declares (scripts : List (JsString × Json)) (script : JsString) : Bool :=
  match mapGet scripts script with
  | some (.string value) => !(trim value).isEmpty
  | _ => false

def PACKAGE_SCRIPTS : List (CommandSlot × List String) :=
  [(.test, ["test"]), (.lint, ["lint"]), (.build, ["build"]), (.run, ["start", "run"])]

def deriveScript (choice : PackageManagerChoice) (scripts : List (JsString × Json)) (commands : Commands)
    (slot : CommandSlot × List String) : Commands :=
  if commands.has slot.1 then commands
  else
    match slot.2.find? fun script => declares scripts (js script) with
    | none => commands
    | some script =>
        let via :=
          match choice.via with
          | none => []
          | some file => js " via " ++ file
        commands ++ [(slot.1,
          { value := scriptCommand choice.manager (js script)
            evidence := js "package.json#scripts." ++ js script ++ via })]

/-- An array of scripts is an object that declares none. -/
def derivePackageJsonCommands (content : JsString) (rootEntries : List JsString) (commands : Commands) : Commands :=
  match parse content with
  | some (.object parsed) =>
      match mapGet parsed (js "scripts") with
      | some (.object scripts) =>
          match packageManagerOf parsed rootEntries with
          | some choice => PACKAGE_SCRIPTS.foldl (deriveScript choice scripts) commands
          | none => commands
      | _ => commands
  | _ => commands

/-- `commands[slot] = leaf`, unless the slot is answered. -/
def answer (commands : Commands) (slot : CommandSlot) (value evidence : JsString) : Commands :=
  if commands.has slot then commands else commands ++ [(slot, { value := value, evidence := evidence })]

/-- `/^([a-zA-Z0-9_.-]+)\s*:/`. -/
def targetPattern : Regex :=
  .sequence [.start, .group 1 (.plus (.any fun point => namePoint point || point == '.'.toNat)),
    .star true (.any spacePoint), .word ":"]

def deriveMakefileCommands (content : JsString) (commands : Commands) : Commands :=
  let targets := (splitLines content).filterMap fun line =>
    if startsWith line (js "\t") || startsWith line (js " ") then none else firstGroup targetPattern line
  COMMAND_SLOTS.foldl (fun commands slot =>
    if targets.contains slot.text then answer commands slot (js "make " ++ slot.text) (js "Makefile:" ++ slot.text)
    else commands) commands

def derivePyprojectLine (commands : Commands) (line : JsString) : Commands :=
  let trimmed := trim line
  let tested :=
    if trimmed == js "[tool.pytest.ini_options]" || trimmed == js "[tool.pytest]" then
      answer commands .test (js "pytest") (js "pyproject.toml#" ++ (trimmed.drop 1).dropLast)
    else commands
  if trimmed == js "[tool.ruff]" then answer tested .lint (js "ruff check") (js "pyproject.toml#tool.ruff") else tested

def derivePyprojectTomlCommands (content : JsString) (commands : Commands) : Commands :=
  (splitLines content).foldl derivePyprojectLine commands

/-- A marker whose path would not fit is left out. -/
def stackEvidence (detected : DetectedStack) : JsString :=
  let full := js "stack:" ++ js detected.id.text ++ js " via " ++ detected.evidence
  if full.length ≤ EVIDENCE_MAX_LENGTH then full else js "stack:" ++ js detected.id.text

def deriveStack (commands : Commands) (detected : DetectedStack) : Commands :=
  COMMAND_SLOTS.foldl (fun commands slot =>
    match (STACK_COMMANDS detected.id).at slot with
    | none => commands
    | some value => answer commands slot (js value) (stackEvidence detected)) commands

/-- Fill the slots the manifests did not state with the toolchain's own verbs. -/
def deriveStackCommands (stack : StackProfile) (commands : Commands) : Commands :=
  stack.detectedStacks.foldl deriveStack commands

def fromManifest {α : Type} (manifest : Option α) (derive : α → Commands → Commands) (commands : Commands) :
    Commands :=
  match manifest with
  | none => commands
  | some content => derive content commands

/-- Derive the four commands, most specific evidence first. -/
def deriveCommands (stack : StackProfile) (manifests : ManifestContents) (rootEntries : List JsString) : Commands :=
  let declared := fromManifest manifests.makefile deriveMakefileCommands
    (fromManifest manifests.pyprojectToml derivePyprojectTomlCommands
      (fromManifest manifests.packageJson (fun content => derivePackageJsonCommands content rootEntries) []))
  let tasks := fromManifest manifests.miseToml deriveMiseCommands
    (fromManifest manifests.justfile deriveJustfileCommands
      (fromManifest manifests.taskfile deriveTaskfileCommands declared))
  let contained := fromManifest manifests.devcontainerJson deriveDevcontainerCommands tasks
  deriveStackCommands stack (deriveWorkflowCommands manifests.workflows contained)

end Commands

section Conventions

def NAMING_MIN_SAMPLE : Nat := 5

inductive NamingForm
  | PascalCase | camelCase | kebabCase | snakeCase | lowercase
  deriving DecidableEq, Repr

def NamingForm.text : NamingForm → JsString
  | PascalCase => js "PascalCase"
  | camelCase => js "camelCase"
  | kebabCase => js "kebab-case"
  | snakeCase => js "snake_case"
  | lowercase => js "lowercase"

def NAMING_FORMS : List NamingForm := [.PascalCase, .camelCase, .kebabCase, .snakeCase, .lowercase]

/-- The identifying part of a file name, or nothing when it carries no casing. -/
def nameStem (path : JsString) : Option JsString :=
  let stem := (basenameOf path).takeWhile (· != unit '.')
  if stem.any fun u => isLowerAlpha u || isUpperAlpha u then some stem else none

def lowerPoint (point : Nat) : Bool := pointIn 'a' 'z' point

def lowerDigitPoint (point : Nat) : Bool := lowerPoint point || digitPoint point

def upperPoint (point : Nat) : Bool := pointIn 'A' 'Z' point

/-- `/^[a-z0-9]+(?:-[a-z0-9]+)+$/`, with this separator. -/
def separatedPattern (separator : String) : Regex :=
  .sequence [.start, .plus (.any lowerDigitPoint), .plus (.seq (.word separator) (.plus (.any lowerDigitPoint))),
    .finish]

/-- `/^[A-Z][A-Za-z0-9]*$/`. -/
def pascalPattern : Regex := .sequence [.start, .any upperPoint, .star true (.any alnumPoint), .finish]

/-- `/^[a-z][a-z0-9]*[A-Z][A-Za-z0-9]*$/`. -/
def camelPattern : Regex :=
  .sequence [.start, .any lowerPoint, .star true (.any lowerDigitPoint), .any upperPoint, .star true (.any alnumPoint),
    .finish]

/-- `/^[a-z][a-z0-9]*$/`. -/
def lowercasePattern : Regex := .sequence [.start, .any lowerPoint, .star true (.any lowerDigitPoint), .finish]

/-- The casing a single name attests to, or nothing when it attests to none. -/
def namingFormOf (stem : JsString) : Option NamingForm :=
  if (separatedPattern "-").test stem then some .kebabCase
  else if (separatedPattern "_").test stem then some .snakeCase
  else if pascalPattern.test stem && stem.any isLowerAlpha then some .PascalCase
  else if camelPattern.test stem then some .camelCase
  else if lowercasePattern.test stem then some .lowercase
  else none

/-- The casings observed among file names, one for each name that has one. -/
def censusNames (paths : List JsString) : List NamingForm :=
  paths.filterMap fun path => (nameStem path).bind namingFormOf

structure Dominant where
  form : NamingForm
  files : Nat
  deriving DecidableEq, Repr

/-- `best`, `bestFiles` and `tied` after one more form. -/
def strongest (census : List NamingForm) (state : Option NamingForm × Nat × Bool) (form : NamingForm) :
    Option NamingForm × Nat × Bool :=
  let files := census.count form
  if files = 0 then state
  else if state.2.1 < files then (some form, files, false)
  else if files = state.2.1 then (state.1, state.2.1, true)
  else state

/-- The one casing a census supports, with the names that support it. -/
def dominantNaming (census : List NamingForm) : Option Dominant :=
  let kebab := census.count .kebabCase
  let snake := census.count .snakeCase
  let lowercase := census.count .lowercase
  let capitalized := census.count .PascalCase + census.count .camelCase
  if decide (capitalized = 0) && decide (0 < kebab) && decide (snake = 0) then
    some { form := .kebabCase, files := kebab + lowercase }
  else if decide (capitalized = 0) && decide (0 < snake) && decide (kebab = 0) then
    some { form := .snakeCase, files := snake + lowercase }
  else
    match NAMING_FORMS.foldl (strongest census) (none, 0, false) with
    | (some best, files, false) => some { form := best, files }
    | _ => none

def NAMING_INSTRUCTION : NamingForm → JsString
  | .PascalCase => js "Name new files in PascalCase"
  | .camelCase => js "Name new files in camelCase"
  | .kebabCase => js "Name new files in kebab-case"
  | .snakeCase => js "Name new files in snake_case"
  | .lowercase => js "Name new files in lowercase single words"

structure Chosen where
  language : LanguageId
  form : NamingForm
  files : Nat
  total : Nat
  deriving DecidableEq, Repr

/-- The first language large enough to measure is the only one measured. The quotient of two counts
below 2 ^ 32 is below 0.8 in the language's numbers exactly where it is below four fifths. -/
def chooseNaming (toLowerCase : JsString → JsString) (paths : List JsString) :
    List DetectedLanguage → Option Chosen
  | [] => none
  | language :: rest =>
      let census := censusNames (paths.filter fun path => languageOfPath toLowerCase path == some language.id)
      if census.length < NAMING_MIN_SAMPLE then chooseNaming toLowerCase paths rest
      else
        match dominantNaming census with
        | none => none
        | some dominant =>
            if 5 * dominant.files < 4 * census.length then none
            else some { language := language.id, form := dominant.form, files := dominant.files, total := census.length }

/-- State the naming convention the repository already follows, or nothing. -/
def deriveNaming (toLowerCase : JsString → JsString) (stack : StackProfile) (paths : List JsString) :
    Option (Leaf JsString) :=
  (chooseNaming toLowerCase paths stack.languages).map fun chosen =>
    { value := NAMING_INSTRUCTION chosen.form ++ js ", as the " ++ js chosen.language.text ++
        js " files in this project already are."
      evidence := js "naming:" ++ chosen.form.text ++ js " on " ++ decimal chosen.files ++ js " of " ++
        decimal chosen.total ++ js " " ++ js chosen.language.text ++ js " files" }

/-- The directory a path sits in, or the empty text at the repository root. -/
def parentOf (path : JsString) : JsString :=
  if path.contains (unit '/') then path.take (path.length - (basenameOf path).length - 1) else []

structure Shape where
  parent : JsString
  name : JsString
  deriving DecidableEq, Repr

/-- The trailing name and the grandparent that every directory has, if they have. -/
def repeatedShape (directories : List DirectoryCandidate) : Option Shape :=
  match directories with
  | [] => none
  | first :: _ =>
      let name := basenameOf first.path
      let parent := parentOf (parentOf first.path)
      if directories.all fun directory => !directory.root && basenameOf directory.path == name &&
          parentOf (parentOf directory.path) == parent then
        some { parent, name }
      else none

/-- `/(?:^|[._-])(?:tests?|specs?)(?:[._-]|$)/i`. -/
def testNamePattern : Regex :=
  let mark : Regex := .any fun point => point == '.'.toNat || point == '_'.toNat || point == '-'.toNat
  .sequence [.alt .start mark,
    .alt (.seq (.wordAnyCase "test") (.maybe (.wordAnyCase "s"))) (.seq (.wordAnyCase "spec") (.maybe (.wordAnyCase "s"))),
    .alt mark .finish]

/-- How many test files sit inside the source tree. -/
def colocatedTests (toLowerCase : JsString → JsString) (paths : List JsString)
    (sources : List DirectoryCandidate) : Nat :=
  paths.countP fun path => (languageOfPath toLowerCase path).isSome &&
    (sources.any fun source => isParent source.path path) && testNamePattern.test (basenameOf path)

def countOf (files : Nat) (noun : String) : JsString :=
  decimal files ++ js " " ++ js noun ++ (if files = 1 then [] else js "s")

def filesUnder (directories : List DirectoryCandidate) : Nat :=
  directories.foldl (fun total one => total + one.files) 0

/-- A layout answer, dropped when it would not fit what a profile can store. -/
def layoutLeaf (value evidence : JsString) : Option (Leaf JsString) :=
  if EVIDENCE_MAX_LENGTH < evidence.length then none
  else if CONVENTION_MAX_LENGTH < value.length then none
  else some { value := value, evidence := evidence }

def layoutCounts (paths : DerivedPaths) : JsString :=
  if paths.tests.isEmpty then countOf (filesUnder paths.source) "source file"
  else countOf (filesUnder paths.source) "source file" ++ js ", " ++ countOf (filesUnder paths.tests) "test file"

def rootLayout (toLowerCase : JsString → JsString) (paths : DerivedPaths) (observed : List JsString)
    (first : DirectoryCandidate) : Option (Leaf JsString) :=
  let tail :=
    match paths.tests.find? DirectoryCandidate.root with
    | some sibling => js " and its tests in the sibling `" ++ sibling.path ++ js "/` directory"
    | none =>
        if 0 < colocatedTests toLowerCase observed paths.source then js " and its tests beside the code they cover"
        else []
  layoutLeaf (js "Place new source under `" ++ first.path ++ js "/` at the repository root" ++ tail ++ js ".")
    (js "layout:root " ++ first.path ++ js "; " ++ layoutCounts paths)

def componentLayout (paths : DerivedPaths) (shape : Shape) : Option (Leaf JsString) :=
  let placement :=
    if shape.parent.isEmpty then
      js "Place new source in `<component>/" ++ shape.name ++
        js "/`, one directory per component at the repository root"
    else
      js "Place new source in `<component>/" ++ shape.name ++ js "/` below `" ++ shape.parent ++ js "/`"
  let tail :=
    match repeatedShape paths.tests with
    | some tests =>
        if tests.parent == shape.parent then js ", and its tests in `<component>/" ++ tests.name ++ js "/`" else []
    | none => []
  layoutLeaf (placement ++ tail ++ js ".")
    (js "layout:" ++ countOf paths.source.length "component" ++ js " under " ++
      (if shape.parent.isEmpty then js "the root" else shape.parent) ++ js "; " ++ layoutCounts paths)

/-- State where this repository puts its code, or nothing. -/
def deriveDirectoryLayout (toLowerCase : JsString → JsString) (paths : DerivedPaths) (observed : List JsString) :
    Option (Leaf JsString) :=
  match paths.source with
  | [] => none
  | first :: rest =>
      if rest.isEmpty && first.root then rootLayout toLowerCase paths observed first
      else (repeatedShape paths.source).bind (componentLayout paths)

/-- `PartialProjectProfile["conventions"]`; without any of them the source leaves the group out. -/
structure ConventionLeaves where
  directoryLayout : Option (Leaf JsString)
  naming : Option (Leaf JsString)
  implementationLanguages : Option (Leaf (List JsString))
  deriving DecidableEq, Repr

/-- The languages with a file, and the census that named them. -/
def deriveLanguages (stack : StackProfile) : Option (Leaf (List JsString)) :=
  let languageIds := (stack.languages.filter fun language => decide (0 < language.files)).map fun language =>
    js language.id.text
  if languageIds.isEmpty then none
  else some { value := languageIds, evidence := js "census:" ++ join (js ",") languageIds }

/-- Derive the three conventions a phase agent has to preserve. -/
def deriveConventions (toLowerCase : JsString → JsString) (stack : StackProfile) (paths : DerivedPaths)
    (observed : List JsString) : ConventionLeaves :=
  { directoryLayout := deriveDirectoryLayout toLowerCase paths observed
    naming := deriveNaming toLowerCase stack observed
    implementationLanguages := deriveLanguages stack }

end Conventions

structure PartialProjectProfile where
  commands : Commands
  paths : PathLeaves
  conventions : ConventionLeaves
  deriving DecidableEq, Repr

/-- Derives a partial project profile from repository manifests and directory layout. -/
def deriveProjectProfile (toLowerCase : JsString → JsString) (evidence : RepositoryEvidence)
    (manifests : ManifestContents) : PartialProjectProfile :=
  let stack := profileStack toLowerCase evidence
  let observed := observedPaths evidence
  let paths := derivePaths evidence.rootEntries (observeLayout toLowerCase observed)
  { commands := deriveCommands stack manifests evidence.rootEntries
    paths := paths.leaves
    conventions := deriveConventions toLowerCase stack paths observed }

end Kratos.Initialization
