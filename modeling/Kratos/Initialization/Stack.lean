/- source: domain/init/stack.ts
   digest: The classification of a project from the names of the files it holds. -/

import Kratos.Foundation.Collections
import Kratos.Foundation.Paths
import Kratos.Foundation.Ranking
import Kratos.Foundation.Sorting
import Kratos.Initialization.StackTables
import Kratos.Schema.CanonicalJson

set_option autoImplicit false

namespace Kratos.Initialization

open Foundation.Collections
open Foundation.Paths (segments)
open Foundation.Ranking Foundation.Sorting Foundation.Text
open Schema (notAfter)

/-- What the classifier is allowed to look at: names only. -/
structure RepositoryEvidence where
  rootEntries : List JsString
  files : Option (List JsString)
  truncated : Bool
  /-- The two listings make one array of the language. -/
  bounded : rootEntries.length + (files.getD []).length < 2 ^ 32
  deriving DecidableEq, Repr

structure DetectedStack where
  id : StackId
  /-- The entry that decided it. -/
  evidence : JsString
  deriving DecidableEq, Repr

structure DetectedLanguage where
  id : LanguageId
  files : Nat
  evidence : JsString
  deriving DecidableEq, Repr

structure ObservedExtension where
  extension : JsString
  files : Nat
  deriving DecidableEq, Repr

structure ObservedEvidence where
  extensions : List ObservedExtension
  rootEntries : List JsString
  deriving DecidableEq, Repr

structure StackProfile where
  /-- `stacks`. -/
  detectedStacks : List DetectedStack
  languages : List DetectedLanguage
  unrecognized : Bool
  /-- `partial`. -/
  incomplete : Bool
  observed : ObservedEvidence
  deriving DecidableEq, Repr

def OBSERVED_EXTENSION_LIMIT : Nat := 8

def OBSERVED_ROOT_ENTRY_LIMIT : Nat := 16

structure Candidate where
  path : JsString
  depth : Nat
  deriving DecidableEq, Repr

def depthOf (path : JsString) : Nat := path.count (unit '/')

def basenameOf (path : JsString) : JsString := path.rtakeWhile (· != unit '/')

/-- `compareText(left, right) <= 0`: unit by unit, a prefix first. -/
abbrev textOrder : JsString → JsString → Bool := notAfter

def TextOrdered (left right : JsString) : Prop := textOrder left right = true

instance : DecidableRel TextOrdered := fun left right => inferInstanceAs (Decidable (textOrder left right = true))

/-- `compareText(left, right) < 0`. -/
def textBefore (left right : JsString) : Bool := !textOrder right left

def isExcluded (segment : JsString) : Bool := SCAN_EXCLUDED_DIRECTORIES.any fun name => js name == segment

def normalize (entry : JsString) : Option JsString :=
  let trimmed := if startsWith entry (js "./") then entry.drop 2 else entry
  if trimmed.isEmpty || startsWith trimmed (js "/") then none
  else if (segments trimmed).any List.isEmpty then none
  -- The last segment is the file itself.
  else if (segments trimmed).dropLast.any isExcluded then none
  else if (segments trimmed).length == 1 && isExcluded trimmed then none
  else some trimmed

/-- Every path the classifier is allowed to count, deduplicated and ordered. -/
def observedPaths (evidence : RepositoryEvidence) : List JsString :=
  sortedUnique TextOrdered
    ((evidence.rootEntries ++ evidence.files.getD []).filterMap normalize)

/-- A root marker beats a nested one, and ties break on the path itself. -/
def preferable (candidate : Candidate) (incumbent : Option Candidate) : Bool :=
  match incumbent with
  | none => true
  | some incumbent =>
      if candidate.depth ≠ incumbent.depth then decide (candidate.depth < incumbent.depth)
      else textBefore candidate.path incumbent.path

def markerFor (name : JsString) : Option StackId :=
  ((EXACT_MARKERS.find? fun marker => name == js marker.1).map Prod.snd).or
    ((SUFFIX_MARKERS.find? fun marker =>
      decide ((js marker.1).length < name.length) && (js marker.1).isSuffixOf name).map Prod.snd)

def LANGUAGE_BY_EXTENSION (extension : JsString) : Option LanguageId :=
  mapGet (LANGUAGE_EXTENSIONS.map fun entry => (js entry.1, entry.2)) extension

structure Counted where
  files : Nat
  best : Candidate
  deriving DecidableEq, Repr

/-- The maps `profileStack` fills. -/
structure Survey where
  markers : List (StackId × Candidate)
  census : List (LanguageId × Counted)
  unmapped : List (JsString × Nat)
  deriving DecidableEq, Repr

section Reading

variable (toLowerCase : JsString → JsString)

/-- The extension of a name, lowercased; a leading dot is a hidden file. -/
def extensionOf (name : JsString) : Option JsString :=
  let tail := name.rtakeWhile (· != unit '.')
  if name.length ≤ tail.length + 1 || tail.isEmpty then none
  else some (toLowerCase (name.drop (name.length - tail.length - 1)))

def languageOfPath (path : JsString) : Option LanguageId :=
  (extensionOf toLowerCase (basenameOf path)).bind LANGUAGE_BY_EXTENSION

def surveyMarker (survey : Survey) (candidate : Candidate) : Survey :=
  match markerFor (basenameOf candidate.path) with
  | none => survey
  | some id =>
      if preferable candidate (mapGet survey.markers id) then
        { survey with markers := mapSet survey.markers id candidate }
      else survey

def surveyLanguage (survey : Survey) (candidate : Candidate) : Survey :=
  match extensionOf toLowerCase (basenameOf candidate.path) with
  | none => survey
  | some extension =>
      match LANGUAGE_BY_EXTENSION extension with
      | none =>
          { survey with
            unmapped := mapSet survey.unmapped extension ((mapGet survey.unmapped extension).getD 0 + 1) }
      | some language =>
          let counted : Counted :=
            match mapGet survey.census language with
            | none => { files := 1, best := candidate }
            | some seen =>
                { files := seen.files + 1
                  best := if preferable candidate (some seen.best) then candidate else seen.best }
          { survey with census := mapSet survey.census language counted }

def surveyPath (survey : Survey) (path : JsString) : Survey :=
  surveyLanguage toLowerCase (surveyMarker survey { path, depth := depthOf path }) { path, depth := depthOf path }

def survey (paths : List JsString) : Survey :=
  paths.foldl (surveyPath toLowerCase) { markers := [], census := [], unmapped := [] }

def byFiles {α : Type} (files : α → Nat) (text : α → JsString) : α → α → Bool :=
  chained (onKey files fun left right => decide (right ≤ left)) (onKey text textOrder)

def observedEvidence (unmapped : List (JsString × Nat)) (rootEntries : List JsString) : ObservedEvidence where
  extensions := ((unmapped.map fun entry => { extension := entry.1, files := entry.2 : ObservedExtension }).mergeSort
    (byFiles ObservedExtension.files ObservedExtension.extension)).take OBSERVED_EXTENSION_LIMIT
  rootEntries := (sortedUnique TextOrdered
    (rootEntries.filter fun entry => (normalize entry).isSome)).take OBSERVED_ROOT_ENTRY_LIMIT

/-- Classify a project from the names of the files it holds. -/
def profileStack (evidence : RepositoryEvidence) : StackProfile :=
  let seen := survey toLowerCase (observedPaths evidence)
  let detectedStacks := (seen.markers.map fun entry => { id := entry.1, evidence := entry.2.path : DetectedStack }).mergeSort
    (onKey (fun stack => js stack.id.text) textOrder)
  let languages := (seen.census.map fun entry =>
      { id := entry.1, files := entry.2.files, evidence := entry.2.best.path : DetectedLanguage }).mergeSort
    (byFiles DetectedLanguage.files fun language => js language.id.text)
  { detectedStacks
    languages
    unrecognized := detectedStacks.isEmpty && languages.isEmpty
    incomplete := evidence.truncated
    observed := observedEvidence seen.unmapped evidence.rootEntries }

end Reading

end Kratos.Initialization
