/- source: domain/git/status.ts, domain/git/model.ts
   digest: The porcelain listings Git prints, and the inputs that have their shape. -/

import Kratos.Git.Status

set_option autoImplicit false

namespace Kratos.Git

open Foundation.Text Foundation.Doubles Foundation.Utf8

section Parts

def isVisible (u : CodeUnit) : Bool := decide (0x20 < u.toNat) && decide (u.toNat < 0x7F)

structure Word where
  text : JsString
  visible : ∀ u ∈ text, isVisible u = true

def isHexDigit (u : CodeUnit) : Bool := isDigit u || between 'a' 'f' u

structure ObjectId where
  digits : JsString
  filled : digits ≠ []
  hex : ∀ u ∈ digits, isHexDigit u = true

/-- Only the id of an absent stage has no other digit than zero. -/
def ObjectId.Absent (id : ObjectId) : Prop := ∀ u ∈ id.digits, u = unit '0'

instance (id : ObjectId) : Decidable id.Absent :=
  inferInstanceAs (Decidable (∀ u ∈ id.digits, u = unit '0'))

/-- The bytes of a path as Git prints them. -/
structure RawPath where
  bytes : Bytes
  filled : bytes ≠ []
  unended : 0 ∉ bytes

/-- A path or a reference in UTF-8: scalar values, none of them the terminator. -/
structure Name where
  points : List Nat
  filled : points ≠ []
  scalars : ∀ p ∈ points, Scalar p
  unended : 0 ∉ points

def Name.bytes (name : Name) : Bytes := name.points.flatMap bytesOfCodePoint

def Name.text (name : Name) : JsString := name.points.flatMap unitsOfCodePoint

def Name.Marked (name : Name) : Prop := name.points.head? = some 0xFEFF

inductive Mode
  | absent | regular | executable | symlink | submodule | directory
  deriving DecidableEq, Repr

def Mode.text : Mode → JsString
  | .absent => js "000000"
  | .regular => js "100644"
  | .executable => js "100755"
  | .symlink => js "120000"
  | .submodule => js "160000"
  | .directory => js "040000"

def Mode.entry : Mode → GitEntryKind
  | .symlink => .symlink
  | .submodule => .submodule
  | .directory => .directory
  | _ => .file

def letterOf : GitChangeKind → CodeUnit
  | .none => unit '.'
  | .added => unit 'A'
  | .modified => unit 'M'
  | .deleted => unit 'D'
  | .renamed => unit 'R'
  | .copied => unit 'C'
  | .typeChanged => unit 'T'

end Parts

section Entries

variable {Path : Type}

structure Tracked (Path : Type) where
  index : GitChangeKind
  worktree : GitChangeKind
  submodule : Word
  headMode : Mode
  indexMode : Mode
  worktreeMode : Mode
  headId : ObjectId
  indexId : ObjectId
  path : Path

/-- The mode on the last side that has the entry. -/
def Tracked.mode (tracked : Tracked Path) : Mode :=
  if tracked.worktreeMode ≠ .absent then tracked.worktreeMode
  else if tracked.indexMode ≠ .absent then tracked.indexMode
  else tracked.headMode

def Tracked.words (tracked : Tracked Path) : List JsString :=
  [[letterOf tracked.index, letterOf tracked.worktree], tracked.submodule.text,
    tracked.headMode.text, tracked.indexMode.text, tracked.worktreeMode.text,
    tracked.headId.digits, tracked.indexId.digits]

structure Unmerged (Path : Type) where
  submodule : Word
  baseMode : Mode
  oursMode : Mode
  theirsMode : Mode
  worktreeMode : Mode
  baseId : ObjectId
  oursId : ObjectId
  theirsId : ObjectId
  path : Path

def Unmerged.conflict (unmerged : Unmerged Path) : GitConflict where
  ours := decide ¬unmerged.oursId.Absent
  theirs := decide ¬unmerged.theirsId.Absent
  base := decide ¬unmerged.baseId.Absent

/-- The state letters, one pair for each set of stages. -/
def conflictLetters : GitConflict → JsString
  | ⟨false, false, _⟩ => js "DD"
  | ⟨true, false, false⟩ => js "AU"
  | ⟨true, false, true⟩ => js "UD"
  | ⟨false, true, false⟩ => js "UA"
  | ⟨false, true, true⟩ => js "DU"
  | ⟨true, true, false⟩ => js "AA"
  | ⟨true, true, true⟩ => js "UU"

def Unmerged.words (unmerged : Unmerged Path) : List JsString :=
  [conflictLetters unmerged.conflict, unmerged.submodule.text, unmerged.baseMode.text,
    unmerged.oursMode.text, unmerged.theirsMode.text, unmerged.worktreeMode.text,
    unmerged.baseId.digits, unmerged.oursId.digits, unmerged.theirsId.digits]

inductive Entry (Path : Type)
  | ordinary (tracked : Tracked Path)
  | renamed (tracked : Tracked Path) (score : Word) (origin : Path)
  | unmerged (stages : Unmerged Path)
  | untracked (path : Path)
  | ignored (path : Path)

def Entry.path : Entry Path → Path
  | .ordinary tracked => tracked.path
  | .renamed tracked _ _ => tracked.path
  | .unmerged stages => stages.path
  | .untracked path => path
  | .ignored path => path

def Entry.origin : Entry Path → Option Path
  | .renamed _ _ origin => some origin
  | _ => none

def Entry.names (entry : Entry Path) : List Path := entry.path :: entry.origin.toList

def Entry.words : Entry Path → List JsString
  | .ordinary tracked => js "1" :: tracked.words
  | .renamed tracked score _ => js "2" :: (tracked.words ++ [score.text])
  | .unmerged stages => js "u" :: stages.words
  | .untracked _ => [js "?"]
  | .ignored _ => [js "!"]

end Entries

section Changes

def Tracked.change (tracked : Tracked Name) (origin : Option Name) : GitChange where
  path := .text tracked.path.text
  tracking := .tracked
  index := tracked.index
  worktree := tracked.worktree
  conflict := none
  renamedFrom := origin.map fun name => .text name.text
  entry := tracked.mode.entry

/-- An unmerged path counts as modified on both sides; its conflict has its state. -/
def Unmerged.change (unmerged : Unmerged Name) : GitChange where
  path := .text unmerged.path.text
  tracking := .tracked
  index := .modified
  worktree := .modified
  conflict := some unmerged.conflict
  renamedFrom := none
  entry := unmerged.worktreeMode.entry

/-- A path without an index state; the path of a directory ends in a slash. -/
def looseChange (path : Name) (tracking : GitTracking) : GitChange where
  path := .text path.text
  tracking := tracking
  index := .none
  worktree := .none
  conflict := none
  renamedFrom := none
  entry := if path.text.getLast? = some (unit '/') then .directory else .file

def Entry.change : Entry Name → GitChange
  | .ordinary tracked => tracked.change none
  | .renamed tracked _ origin => tracked.change (some origin)
  | .unmerged stages => stages.change
  | .untracked path => looseChange path .untracked
  | .ignored path => looseChange path .ignored

end Changes

section Heads

structure Upstream where
  ref : Name
  /-- The numbers of commits ahead and behind. -/
  divergence : Option (Nat × Nat)
  counted : ∀ counts ∈ divergence, counts.1 ≤ exactLimit ∧ counts.2 ≤ exactLimit

/-- The head of a listing; no branch has the name that stands for its absence. -/
inductive Head
  | unborn (name : Name) (named : name.text ≠ js "(detached)")
  | detached (commit : ObjectId)
  | branch (name : Name) (named : name.text ≠ js "(detached)") (commit : ObjectId)
      (upstream : Option Upstream)

def Upstream.value (upstream : Upstream) : GitUpstream where
  ref := upstream.ref.text
  ahead := (upstream.divergence.map Prod.fst).getD 0
  behind := (upstream.divergence.map Prod.snd).getD 0

def Head.value : Head → GitHead
  | .unborn name _ => .unborn name.text
  | .detached commit => .detached commit.digits
  | .branch name _ commit upstream =>
      .branch name.text commit.digits (upstream.map Upstream.value)

end Heads

section Rendering

def asciiBytes (text : JsString) : Bytes := text.map UInt16.toNat

def lead (words : List JsString) : JsString := words.flatMap fun word => word ++ [unit ' ']

/-- A record: its words, and what follows them to its end. -/
def line (words : List JsString) (bytes : Bytes) : Bytes := asciiBytes (lead words) ++ bytes

def Entry.records {Path : Type} (bytes : Path → Bytes) (entry : Entry Path) : List Bytes :=
  line entry.words (bytes entry.path) :: entry.origin.toList.map bytes

def header (key : JsString) (bytes : Bytes) : Bytes := line [js "#", key] bytes

def Upstream.records (upstream : Upstream) : List Bytes :=
  header (js "branch.upstream") upstream.ref.bytes ::
    upstream.divergence.toList.map fun counts =>
      header (js "branch.ab")
        (asciiBytes (js "+" ++ decimal counts.1 ++ js " -" ++ decimal counts.2))

def Head.records : Head → List Bytes
  | .unborn name _ =>
      [header (js "branch.oid") (asciiBytes (js "(initial)")),
        header (js "branch.head") name.bytes]
  | .detached commit =>
      [header (js "branch.oid") (asciiBytes commit.digits),
        header (js "branch.head") (asciiBytes (js "(detached)"))]
  | .branch name _ commit upstream =>
      header (js "branch.oid") (asciiBytes commit.digits) ::
        header (js "branch.head") name.bytes :: upstream.toList.flatMap Upstream.records

def ended (records : List Bytes) : Bytes := records.flatMap fun record => record ++ [0]

structure Listing where
  head : Head
  entries : List (Entry Name)

def Listing.records (listing : Listing) : List Bytes :=
  listing.head.records ++ listing.entries.flatMap (Entry.records Name.bytes)

def Listing.render (listing : Listing) : Bytes := ended listing.records

/-- A status that says all a listing says. -/
structure Faithful (listing : Listing) (status : ParsedStatus) : Prop where
  head : status.head = listing.head.value
  changes : status.changes.Perm (listing.entries.map Entry.change)
  distinct : (listing.entries.map Entry.path).Nodup → (status.changes.map GitChange.path).Nodup

end Rendering

section Shapes

def wordsOf (record : Bytes) : List JsString := spaceParts (decode record)

/-- A header is a mark and more words; the counts of a divergence are numbers with their signs. -/
def IsHeader (words : List JsString) : Prop :=
  2 ≤ words.length ∧ words.head? = some (js "#") ∧
    (words[1]? = some (js "branch.ab") → ∃ ahead behind later,
      words.drop 2 = (js "+" ++ ahead) :: (js "-" ++ behind) :: later ∧
        parseInteger ahead ≠ none ∧ parseInteger behind ≠ none)

/-- What the last header with the key says. -/
def lastValue (key : JsString) (headers : List JsString) : Option JsString :=
  (headers.reverse.find? fun text => decide ((spaceParts text)[1]? = some key)).map fun text =>
    spaceJoined ((spaceParts text).drop 2)

/-- The headers name a commit and a branch, or say that one of them is missing. -/
def NamesHead (headers : List JsString) : Prop :=
  ∃ oid head, lastValue (js "branch.oid") headers = some oid ∧
    lastValue (js "branch.head") headers = some head ∧
    ¬(oid = js "(initial)" ∧ head = js "(detached)")

end Shapes

section Streams

/-- What a status stream is made of: blanks, headers and entries. -/
inductive Item
  | blank
  | header (record : Bytes) (shape : IsHeader (wordsOf record)) (unended : 0 ∉ record)
  | entry (printed : Entry RawPath)

def Item.records : Item → List Bytes
  | .blank => [[]]
  | .header record _ _ => [record]
  | .entry printed => printed.records RawPath.bytes

def Item.header? : Item → Option JsString
  | .header record _ _ => some (decode record)
  | _ => none

/-- The input is a whole stream: terminated items that name a head. -/
def WellFormed (input : Bytes) : Prop :=
  ∃ items : List Item, input = ended (items.flatMap Item.records) ∧
    NamesHead (items.filterMap Item.header?)

/-- Every listing is read in full, and a malformed or truncated input is refused. -/
def ReadsInFull (sha256Bytes : Bytes → JsString) (input : Bytes) : Prop :=
  (∀ listing : Listing, input = listing.render →
    ∃ status, parseStatusPorcelainV2 sha256Bytes input = some status ∧ Faithful listing status) ∧
  (¬WellFormed input → parseStatusPorcelainV2 sha256Bytes input = none)

end Streams

section Resemblance

def LooksLoose (words : List JsString) : Prop :=
  2 ≤ words.length ∧ (words.head? = some (js "?") ∨ words.head? = some (js "!"))

/-- More than so many words, the second of them with two letters that are known. -/
def LooksTracked (type : JsString) (leading : Nat) (words : List JsString) : Prop :=
  leading < words.length ∧ words.head? = some type ∧
    ∃ index worktree later, words[1]? = some (index :: worktree :: later) ∧
      kindOf index ≠ none ∧ kindOf worktree ≠ none

def LooksUnmerged (words : List JsString) : Prop := 10 < words.length ∧ words.head? = some (js "u")

/-- Records with words enough for their types, and the texts of the headers among them. -/
inductive Resembles : List Bytes → List JsString → Prop
  | nil : Resembles [] []
  | blank {records : List Bytes} {headers : List JsString} (later : Resembles records headers) :
      Resembles ([] :: records) headers
  | header {record : Bytes} {records : List Bytes} {headers : List JsString}
      (shape : IsHeader (wordsOf record)) (later : Resembles records headers) :
      Resembles (record :: records) (decode record :: headers)
  | change {record : Bytes} {records : List Bytes} {headers : List JsString}
      (shape : LooksLoose (wordsOf record) ∨ LooksTracked (js "1") 8 (wordsOf record) ∨
        LooksUnmerged (wordsOf record)) (later : Resembles records headers) :
      Resembles (record :: records) headers
  | moved {record origin : Bytes} {records : List Bytes} {headers : List JsString}
      (shape : LooksTracked (js "2") 9 (wordsOf record)) (filled : origin ≠ [])
      (later : Resembles records headers) : Resembles (record :: origin :: records) headers

/-- The input resembles a stream that names a head, its last record ended or not. -/
def ResemblesStream (input : Bytes) : Prop :=
  ∃ records headers, input ++ [0] = ended records ∧ (∀ record ∈ records, 0 ∉ record) ∧
    Resembles records headers ∧ NamesHead headers

end Resemblance

end Kratos.Git
