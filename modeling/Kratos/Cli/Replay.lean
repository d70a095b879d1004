/- source: domain/cli/parse.ts, domain/cli/memory.ts, domain/cli/migration.ts
   digest: An apply argv parses back to the command it was printed for, authorized. -/

import Kratos.Cli.ApplyArgv
import Kratos.Cli.ShellArgument

set_option autoImplicit false

namespace Kratos.Cli

open Foundation.Text Foundation.Collections Foundation.ShellWords

section Spelling

/-- One argument as a command line spells it. -/
inductive Piece
  | flag (name : JsString)
  | option (name value : JsString)
  | operand (value : JsString)

def Piece.spell : Piece → List JsString
  | .flag name => [name]
  | .option name value => [name, value]
  | .operand value => [value]

def Piece.entry : Piece → Option (JsString × FlagValue)
  | .flag name => some (name, .present)
  | .option name value => some (name, .given value)
  | .operand _ => none

def Piece.position : Piece → Option JsString
  | .operand value => some value
  | _ => none

def globalTokens : List JsString :=
  [js "--json", js "--help", js "-h", js "--version", js "--expect"]

/-- A flag a command declares, under a name no global flag takes. -/
structure Declared (spec : CommandSpec) (name : JsString) (kind : FlagKind) : Prop where
  dash : dashed name = true
  long : name.length ≠ 1
  local' : name ∉ globalTokens
  found : (spec.flags.find? fun flag => decide (flag.name = name)) = some { name, kind }

instance (spec : CommandSpec) (name : JsString) (kind : FlagKind) :
    Decidable (Declared spec name kind) :=
  decidable_of_iff (dashed name = true ∧ name.length ≠ 1 ∧ name ∉ globalTokens ∧
      (spec.flags.find? fun flag => decide (flag.name = name)) = some { name, kind })
    ⟨fun held => ⟨held.1, held.2.1, held.2.2.1, held.2.2.2⟩,
      fun held => ⟨held.dash, held.long, held.local', held.found⟩⟩

def Piece.Sound (spec : CommandSpec) : Piece → Prop
  | .flag name => Declared spec name .boolean
  | .option name value => Declared spec name .value ∧ dashed value = false
  | .operand value => dashed value = false ∨ value.length = 1

variable {spec : CommandSpec}

theorem arguments_piece {piece : Piece} (sound : piece.Sound spec)
    (flags : List (JsString × FlagValue)) (positionals tokens : List JsString) :
    argumentsFrom spec flags positionals (piece.spell ++ tokens) =
      argumentsFrom spec (flags ++ piece.entry.toList) (positionals ++ piece.position.toList)
        tokens := by
  cases piece with
  | flag name =>
      have flagged : (!dashed name || name.length == 1) = false := by
        simp [sound.dash, sound.long]
      simp only [Piece.spell, List.singleton_append, Piece.entry, Option.toList_some,
        Piece.position, Option.toList_none, List.append_nil]
      rw [argumentsFrom]
      simp only [dashed] at flagged
      rw [flagged, if_neg (by simp), sound.found]
  | option name value =>
      obtain ⟨declared, plain⟩ := sound
      have flagged : (!dashed name || name.length == 1) = false := by
        simp [declared.dash, declared.long]
      simp only [Piece.spell, List.cons_append, List.nil_append, Piece.entry, Option.toList_some,
        Piece.position, Option.toList_none, List.append_nil]
      rw [argumentsFrom]
      simp only [dashed] at flagged plain
      rw [flagged, if_neg (by simp), declared.found]
      simp [plain]
  | operand value =>
      have operand : (!dashed value || value.length == 1) = true := by
        rcases sound with plain | short
        · simp [plain]
        · simp [short]
      simp only [Piece.spell, List.singleton_append, Piece.entry, Option.toList_none,
        List.append_nil, Piece.position, Option.toList_some]
      rw [argumentsFrom]
      simp only [dashed] at operand
      rw [operand, if_pos rfl]

theorem arguments_pieces {pieces : List Piece} (sound : ∀ piece ∈ pieces, piece.Sound spec)
    (flags : List (JsString × FlagValue)) (positionals : List JsString) :
    argumentsFrom spec flags positionals (pieces.flatMap Piece.spell) =
      .ok { flags := flags ++ pieces.filterMap Piece.entry,
            positionals := positionals ++ pieces.filterMap Piece.position } := by
  induction pieces generalizing flags positionals with
  | nil => simp [argumentsFrom]
  | cons piece pieces hyp =>
      have later := hyp fun other member => sound other (List.mem_cons_of_mem _ member)
      rw [List.flatMap_cons, arguments_piece (sound piece List.mem_cons_self), later]
      simp only [List.filterMap_eq_flatMap_toList, List.flatMap_cons, List.append_assoc]

theorem not_global_of_plain {token : JsString} (plain : dashed token = false) :
    token ∉ globalTokens := by
  intro member
  have all : ∀ other ∈ globalTokens, dashed other = true := by decide
  rw [all token member] at plain
  cases plain

theorem not_global_of_short {token : JsString} (short : token.length = 1) :
    token ∉ globalTokens := by
  intro member
  have all : ∀ other ∈ globalTokens, other.length ≠ 1 := by decide
  exact all token member short

theorem spell_local {piece : Piece} (sound : piece.Sound spec) :
    ∀ token ∈ piece.spell, token ∉ globalTokens := by
  intro token member
  cases piece with
  | flag name =>
      rw [List.mem_singleton.mp member]
      exact sound.local'
  | option name value =>
      rcases List.mem_pair.mp member with rfl | rfl
      · exact sound.1.local'
      · exact not_global_of_plain sound.2
  | operand value =>
      rw [List.mem_singleton.mp member]
      exact sound.elim not_global_of_plain not_global_of_short

def plainGlobals : Globals := { json := false, expect := none, orientation := none }

theorem globals_plain {tokens : List JsString} (plain : ∀ token ∈ tokens, token ∉ globalTokens)
    (rest : List JsString) :
    globalsFrom false none none rest tokens =
      { globals := plainGlobals, rest := rest ++ tokens, failure := none } := by
  induction tokens generalizing rest with
  | nil => rw [globalsFrom, List.append_nil]; rfl
  | cons token tokens hyp =>
      have here := plain token List.mem_cons_self
      simp only [globalTokens, List.mem_cons, List.not_mem_nil, or_false, not_or] at here
      rw [globalsFrom.eq_def]
      dsimp only
      rw [if_neg here.1, if_neg (by simp [here.2.1, here.2.2.1]),
        if_neg here.2.2.2.1, if_neg here.2.2.2.2,
        hyp fun other member => plain other (List.mem_cons_of_mem _ member)]
      simp

theorem parseGlobals_plain {tokens : List JsString}
    (plain : ∀ token ∈ tokens, token ∉ globalTokens) :
    parseGlobals tokens = { globals := plainGlobals, rest := tokens, failure := none } := by
  have absent : tokens.contains (js "--json") = false := by
    rw [← Bool.not_eq_true, List.contains_iff_mem]
    exact fun member => plain _ member (by decide)
  rw [parseGlobals, absent, globals_plain plain, List.nil_append]

theorem registered_found {registry : CommandRegistry}
    (names : (registry.map fun spec => spaced spec.path).Nodup) (member : spec ∈ registry) :
    (registry.find? fun other => decide (spaced other.path = spaced spec.path)) = some spec := by
  obtain ⟨found, search⟩ : ∃ found, (registry.find? fun other =>
      decide (spaced other.path = spaced spec.path)) = some found := by
    rw [← Option.isSome_iff_exists, List.find?_isSome]
    exact ⟨spec, member, decide_eq_true rfl⟩
  have same : spaced found.path = spaced spec.path := by simpa using List.find?_some search
  rw [search, List.inj_on_of_nodup_map names (List.mem_of_find?_eq_some search) member same]

theorem resolve_path {first second : JsString} (member : spec ∈ defaultRegistry)
    (path : spec.path = [first, second]) (tail : List JsString) :
    resolveCommand (first :: second :: tail) defaultRegistry =
      some { command := spec, rest := tail } := by
  have found := registered_found defaultRegistry_names member
  rw [path] at found
  have deepest : (List.range 2).reverse = [1, 0] := by decide
  have direct : matchCommand (first :: second :: tail) defaultRegistry =
      some { command := spec, rest := tail } := by
    simp only [matchCommand, defaultRegistry_depth, deepest, List.findSome?_cons]
    rw [show (first :: second :: tail).take (1 + 1) = [first, second] from rfl, found]
    rfl
  rw [resolveCommand.eq_def, direct]

theorem parse_spelled {first second : JsString} (member : spec ∈ defaultRegistry)
    (path : spec.path = [first, second]) (named : ∀ token ∈ spec.path, token ∉ globalTokens)
    {pieces : List Piece} (sound : ∀ piece ∈ pieces, piece.Sound spec)
    (atLeast : spec.min ≤ (pieces.filterMap Piece.position).length)
    (atMost : (pieces.filterMap Piece.position).length ≤ spec.max) :
    parseInvocation (spec.path ++ pieces.flatMap Piece.spell) defaultRegistry =
      .invocation
        { command := spec, globals := plainGlobals,
          flags := pieces.filterMap Piece.entry,
          positionals := pieces.filterMap Piece.position } := by
  have plain : ∀ token ∈ spec.path ++ pieces.flatMap Piece.spell, token ∉ globalTokens := by
    intro token inside
    rcases List.mem_append.mp inside with named' | spelled
    · exact named token named'
    · obtain ⟨piece, spelledBy, at_⟩ := List.mem_flatMap.mp spelled
      exact spell_local (sound piece spelledBy) token at_
  have read : parseArguments spec (pieces.flatMap Piece.spell) =
      .ok { flags := pieces.filterMap Piece.entry,
            positionals := pieces.filterMap Piece.position } := by
    rw [parseArguments, arguments_pieces sound]
    simp only [List.nil_append]
    rw [if_neg (by omega)]
  rw [parseInvocation, parseGlobals_plain plain, path]
  simp only [plainGlobals, Option.none_or, Option.bind_none, commandTokens, List.cons_append,
    List.nil_append, reduceCtorEq, if_false]
  rw [resolve_path member path]
  simp only [read]

end Spelling

section Reading

variable {spec : CommandSpec} {flags : List (JsString × FlagValue)}
  {positionals tokens : List JsString}

def ReadFlag (spec : CommandSpec) (entry : JsString × FlagValue) : Prop :=
  ∃ flag ∈ spec.flags, flag.name = entry.1 ∧
    (flag.kind = .boolean ∧ entry.2 = .present ∨
      flag.kind = .value ∧ ∃ value, entry.2 = .given value ∧ dashed value = false)

/-- What parsing promises of all it read. -/
structure ReadWell (spec : CommandSpec) (flags : List (JsString × FlagValue))
    (positionals : List JsString) : Prop where
  flags : ∀ entry ∈ flags, ReadFlag spec entry
  operands : ∀ value ∈ positionals, dashed value = false ∨ value.length = 1

theorem readWell_flag (well : ReadWell spec flags positionals) {entry : JsString × FlagValue}
    (read : ReadFlag spec entry) : ReadWell spec (flags ++ [entry]) positionals where
  flags := by
    intro other member
    rcases List.mem_append.mp member with before | last
    · exact well.flags other before
    · rwa [List.mem_singleton.mp last]
  operands := well.operands

theorem readWell_operand (well : ReadWell spec flags positionals) {value : JsString}
    (plain : dashed value = false ∨ value.length = 1) :
    ReadWell spec flags (positionals ++ [value]) where
  flags := well.flags
  operands := by
    intro other member
    rcases List.mem_append.mp member with before | last
    · exact well.operands other before
    · rwa [List.mem_singleton.mp last]

theorem arguments_read {read : Arguments}
    (parsed : argumentsFrom spec flags positionals tokens = .ok read)
    (well : ReadWell spec flags positionals) : ReadWell spec read.flags read.positionals := by
  fun_induction argumentsFrom spec flags positionals tokens with
  | case1 =>
      cases parsed
      exact well
  | case2 flags positionals token tokens operand hyp =>
      refine hyp parsed (readWell_operand well ?_)
      simpa [dashed, Bool.or_eq_true] using operand
  | case3 => cases parsed
  | case4 flags positionals token tokens flagged flag found kind hyp =>
      refine hyp parsed (readWell_flag well ?_)
      exact ⟨flag, List.mem_of_find?_eq_some found, rfl, .inl ⟨kind, rfl⟩⟩
  | case5 => cases parsed
  | case6 => cases parsed
  | case7 flags positionals token flagged flag found kind value tokens plain hyp =>
      refine hyp parsed (readWell_flag well ?_)
      exact ⟨flag, List.mem_of_find?_eq_some found, rfl,
        .inr ⟨kind, value, rfl, by simpa [dashed] using plain⟩⟩

theorem invocation_read {argv : List JsString} {registry : CommandRegistry}
    {invocation : Invocation} (parsed : parseInvocation argv registry = .invocation invocation) :
    ReadWell invocation.command invocation.flags invocation.positionals ∧
      invocation.command.min ≤ invocation.positionals.length ∧
      invocation.positionals.length ≤ invocation.command.max := by
  unfold parseInvocation at parsed
  dsimp only at parsed
  split at parsed
  · cases parsed
  split at parsed
  · cases parsed
  rename_i resolved _
  split at parsed
  · cases parsed
  rename_i read arguments
  injection parsed with same
  subst same
  unfold parseArguments at arguments
  split at arguments
  · cases arguments
  rename_i looped
  split_ifs at arguments with count
  cases arguments
  rw [not_or, not_lt, not_lt] at count
  exact ⟨arguments_read looped ⟨by simp, by simp⟩, count.1, count.2⟩

variable {invocation : Invocation}

theorem textFlag_get (well : ReadWell invocation.command invocation.flags positionals)
    {name : String}
    (valued : ∀ flag ∈ invocation.command.flags, flag.name = js name → flag.kind = .value) :
    mapGet invocation.flags (js name) = (textFlag invocation name).map .given := by
  unfold textFlag
  cases found : mapGet invocation.flags (js name) with
  | none => rfl
  | some held =>
      obtain ⟨flag, member, named, ⟨kind, -⟩ | ⟨-, value, rfl, -⟩⟩ :=
        well.flags _ (mapGet_mem found)
      · rw [valued flag member named] at kind
        cases kind
      · rfl

theorem textFlag_plain (well : ReadWell invocation.command invocation.flags positionals)
    {name : String} {value : JsString} (held : textFlag invocation name = some value) :
    dashed value = false := by
  unfold textFlag at held
  split at held
  · rename_i found
    cases held
    obtain ⟨flag, -, -, ⟨-, same⟩ | ⟨-, other, same, plain⟩⟩ := well.flags _ (mapGet_mem found)
    · cases same
    · cases same
      exact plain
  · cases held

end Reading

section Apply

/-- The text flags an apply argv repeats, as pieces. -/
def carried (invocation : Invocation) (names : List String) : List Piece :=
  names.filterMap fun name => (textFlag invocation name).map (Piece.option (js name))

def carriedEntries (invocation : Invocation) (names : List String) :
    List (JsString × FlagValue) :=
  names.filterMap fun name => (textFlag invocation name).map fun value => (js name, .given value)

variable {invocation : Invocation} {names : List String}

theorem carried_entries :
    (carried invocation names).filterMap Piece.entry = carriedEntries invocation names := by
  rw [carried, carriedEntries, List.filterMap_filterMap]
  congr 1
  funext name
  cases textFlag invocation name <;> rfl

theorem carried_positions : (carried invocation names).filterMap Piece.position = [] := by
  rw [carried, List.filterMap_filterMap, List.filterMap_eq_nil_iff]
  intro name _
  cases textFlag invocation name <;> rfl

theorem carried_spelled :
    (carried invocation names).flatMap Piece.spell = names.flatMap (repeated invocation) := by
  induction names with
  | nil => rfl
  | cons name names hyp =>
      rw [List.flatMap_cons, ← hyp, carried, carried, repeated, List.filterMap_cons]
      cases textFlag invocation name <;> rfl

theorem carriedEntries_sublist :
    ((carriedEntries invocation names).map Prod.fst).Sublist (names.map js) := by
  induction names with
  | nil => exact List.Sublist.slnil
  | cons name names hyp =>
      unfold carriedEntries at hyp ⊢
      rw [List.filterMap_cons, List.map_cons]
      cases textFlag invocation name with
      | none => exact hyp.cons _
      | some value => exact hyp.cons_cons _

theorem carriedEntries_get (distinct : (names.map js).Nodup) {name : String}
    (listed : name ∈ names) :
    mapGet (carriedEntries invocation names) (js name) =
      (textFlag invocation name).map .given := by
  cases held : textFlag invocation name with
  | none =>
      rw [Option.map_none, mapGet_eq_none_iff]
      intro member
      obtain ⟨entry, inside, same⟩ := List.mem_map.mp member
      obtain ⟨other, otherListed, held'⟩ := List.mem_filterMap.mp inside
      obtain ⟨value, read, rfl⟩ := Option.map_eq_some_iff.mp held'
      rw [List.inj_on_of_nodup_map distinct otherListed listed same, held] at read
      cases read
  | some value =>
      refine mapGet_of_mem (carriedEntries_sublist.nodup distinct) ?_
      exact List.mem_filterMap.mpr ⟨name, listed, by rw [held]; rfl⟩

def Piece.ofEntry (entry : JsString × FlagValue) : Piece :=
  match entry.2 with
  | .present => .flag entry.1
  | .given value => .option entry.1 value

theorem ofEntry_entry (entry : JsString × FlagValue) :
    (Piece.ofEntry entry).entry = some entry := by
  obtain ⟨name, value⟩ := entry
  cases value <;> rfl

theorem ofEntry_position (entry : JsString × FlagValue) :
    (Piece.ofEntry entry).position = none := by
  obtain ⟨name, value⟩ := entry
  cases value <;> rfl

def requestFlags : List String := ["--root", "--answers", "--as-of"]

/-- An invocation asks for the same as another, and carries the authority to apply it. -/
structure Replays (invocation : Invocation) (authority : Authority) (again : Invocation) :
    Prop where
  command : again.command = invocation.command
  globals : again.globals = plainGlobals
  requested : ∀ name ∈ requestFlags,
    mapGet again.flags (js name) = mapGet invocation.flags (js name)
  positionals : again.positionals = invocation.positionals
  authorized : ∀ entry ∈ authorization invocation.command authority,
    mapGet again.flags entry.1 = some entry.2

/-- What the registry must say of a command for its apply argv to be understood: `names` are
the request's own flags, `bound` those its digests and instant stand under. -/
structure Applies (spec : CommandSpec) (names bound : List String) : Prop where
  registered : spec ∈ defaultRegistry
  depth : spec.path.length = 2
  named : ∀ token ∈ spec.path, token ∉ globalTokens
  distinct : (names.map js).Nodup
  valued : ∀ name ∈ names, Declared spec (js name) .value
  typed : ∀ name ∈ names, ∀ flag ∈ spec.flags, flag.name = js name → flag.kind = .value
  requested : ∀ name ∈ requestFlags, name ∈ names ∨
    js name ∉ spec.flags.map FlagSpec.name ∧ js name ∉ names.map js
  granted : Declared spec (js "--yes") .boolean
  bindable : ∀ name ∈ bound, Declared spec (js name) .value
  apart : ∀ name ∈ requestFlags, js name ∉ ("--yes" :: bound).map js
  single : (("--yes" :: bound).map js).Nodup

theorem undeclared_get {spec : CommandSpec} {flags : List (JsString × FlagValue)}
    {positionals : List JsString} (well : ReadWell spec flags positionals) {name : JsString}
    (undeclared : name ∉ spec.flags.map FlagSpec.name) : mapGet flags name = none := by
  rw [mapGet_eq_none_iff]
  intro member
  obtain ⟨entry, inside, rfl⟩ := List.mem_map.mp member
  obtain ⟨flag, declared, same, -⟩ := well.flags entry inside
  exact undeclared (same ▸ List.mem_map_of_mem declared)

theorem authorization_names {spec : CommandSpec} {authority : Authority} {bound : List String}
    (binding : (bindings spec authority).map Prod.fst = bound.map js) :
    (authorization spec authority).map Prod.fst = ("--yes" :: bound).map js := by
  rw [authorization, List.map_cons, List.map_map, List.map_cons, ← binding]
  rfl

/-- An argv spelled as the request's flags, its operands and the authority replays it. -/
theorem replay_pieces {authority : Authority} {bound : List String}
    (applies : Applies invocation.command names bound)
    (well : ReadWell invocation.command invocation.flags invocation.positionals)
    (counted : invocation.command.min ≤ invocation.positionals.length ∧
      invocation.positionals.length ≤ invocation.command.max)
    (binding : (bindings invocation.command authority).map Prod.fst = bound.map js)
    {pieces : List Piece} (sound : ∀ piece ∈ pieces, piece.Sound invocation.command)
    (entries : pieces.filterMap Piece.entry =
      carriedEntries invocation names ++ authorization invocation.command authority)
    (positions : pieces.filterMap Piece.position = invocation.positionals) :
    ∃ again, parseInvocation (invocation.command.path ++ pieces.flatMap Piece.spell)
        defaultRegistry = .invocation again ∧ Replays invocation authority again := by
  obtain ⟨first, second, path⟩ := List.length_eq_two.mp applies.depth
  have authorized := authorization_names binding
  refine ⟨_, parse_spelled applies.registered path applies.named sound ?_ ?_, ?_⟩
  · rw [positions]
    exact counted.1
  · rw [positions]
    exact counted.2
  refine ⟨rfl, rfl, ?_, positions, ?_⟩
  · intro name listed
    have elsewhere : mapGet (authorization invocation.command authority) (js name) = none := by
      rw [mapGet_eq_none_iff, authorized]
      exact applies.apart name listed
    rw [entries, mapGet_append, elsewhere, Option.none_or]
    rcases applies.requested name listed with carriedOver | ⟨undeclared, uncarried⟩
    · rw [carriedEntries_get applies.distinct carriedOver,
        textFlag_get well (applies.typed name carriedOver)]
    · rw [undeclared_get well undeclared, mapGet_eq_none_iff]
      exact fun member => uncarried (carriedEntries_sublist.mem member)
  · intro entry member
    have own : mapGet (authorization invocation.command authority) entry.1 = some entry.2 :=
      mapGet_of_mem (authorized ▸ applies.single) member
    rw [entries, mapGet_append, own, Option.some_or]

variable {bound : List String} {authority : Authority}

theorem carried_sound {some : List String} (applies : Applies invocation.command names bound)
    (well : ReadWell invocation.command invocation.flags invocation.positionals)
    (among : ∀ name ∈ some, name ∈ names) :
    ∀ piece ∈ carried invocation some, piece.Sound invocation.command := by
  intro piece member
  obtain ⟨name, listed, held⟩ := List.mem_filterMap.mp member
  obtain ⟨value, read, rfl⟩ := Option.map_eq_some_iff.mp held
  exact ⟨applies.valued name (among name listed), textFlag_plain well read⟩

def authorityPieces (spec : CommandSpec) (authority : Authority) : List Piece :=
  (authorization spec authority).map Piece.ofEntry

theorem authorityPieces_entries (spec : CommandSpec) (authority : Authority) :
    (authorityPieces spec authority).filterMap Piece.entry = authorization spec authority := by
  rw [authorityPieces, List.filterMap_map]
  simp [ofEntry_entry]

theorem authorityPieces_positions (spec : CommandSpec) (authority : Authority) :
    (authorityPieces spec authority).filterMap Piece.position = [] := by
  rw [authorityPieces, List.filterMap_map]
  simp [ofEntry_position]

theorem authorityPieces_sound {spec : CommandSpec} (applies : Applies spec names bound)
    (binding : (bindings spec authority).map Prod.fst = bound.map js) :
    ∀ piece ∈ authorityPieces spec authority, piece.Sound spec := by
  intro piece member
  obtain ⟨entry, listed, rfl⟩ := List.mem_map.mp member
  rcases List.mem_cons.mp listed with rfl | later
  · exact applies.granted
  · obtain ⟨bound', inside, rfl⟩ := List.mem_map.mp later
    have named : bound'.1 ∈ bound.map js := binding ▸ List.mem_map_of_mem inside
    obtain ⟨name, bindable, same⟩ := List.mem_map.mp named
    exact ⟨same ▸ applies.bindable name bindable, bindings_plain spec authority bound' inside⟩

/-- The commands whose apply binds one reviewed proposal. -/
def reviewedCommands : List CommandSpec := changeCommands ++ [migrateMemoryCommand]

theorem reviewed_applies {spec : CommandSpec} (member : spec ∈ reviewedCommands) :
    Applies spec ["--root"] ["--proposal-digest", "--plan-digest", "--plan-time"] := by
  revert spec
  simp only [reviewedCommands, changeCommands, List.cons_append, List.nil_append,
    List.forall_mem_cons]
  refine ⟨?_, ?_, ?_, ?_, ?_, by simp⟩
  all_goals constructor <;> decide +kernel

theorem curate_applies : Applies memoryCurateCommand ["--as-of", "--root"]
    ["--plan-digest", "--approval-digest", "--plan-time"] := by
  constructor <;> decide +kernel

theorem config_applies : Applies migrateConfigCommand ["--root", "--answers"]
    ["--plan-digest", "--plan-time"] := by
  constructor <;> decide +kernel

theorem reviewed_bindings {spec : CommandSpec} (member : spec ∈ reviewedCommands) :
    bindings spec authority =
      [(js "--proposal-digest", authority.proposalDigest),
        (js "--plan-digest", authority.planDigest), (js "--plan-time", authority.planTime)] := by
  have apart : ∀ spec ∈ reviewedCommands,
      spec ≠ memoryCurateCommand ∧ spec ≠ migrateConfigCommand := by decide +kernel
  obtain ⟨notCurate, notConfig⟩ := apart spec member
  rw [bindings, if_neg notCurate, if_neg notConfig]

theorem curate_bindings : bindings memoryCurateCommand authority =
    [(js "--plan-digest", authority.planDigest),
      (js "--approval-digest", authority.approvalDigest),
      (js "--plan-time", authority.planTime)] := by
  rw [bindings, if_pos rfl]

theorem config_bindings : bindings migrateConfigCommand authority =
    [(js "--plan-digest", authority.planDigest), (js "--plan-time", authority.planTime)] := by
  rw [bindings, if_neg (by decide), if_pos rfl]

/-- What a request spells: some of its flags, its operands, the rest of its flags, and then
the authority. -/
def requestPieces (invocation : Invocation) (authority : Authority) (front back : List String) :
    List Piece :=
  carried invocation front ++ invocation.positionals.map .operand ++ carried invocation back ++
    authorityPieces invocation.command authority

variable {front back : List String}

theorem requestPieces_spelled :
    (requestPieces invocation authority front back).flatMap Piece.spell =
      front.flatMap (repeated invocation) ++ invocation.positionals ++
        back.flatMap (repeated invocation) ++
        (authorityPieces invocation.command authority).flatMap Piece.spell := by
  have operands : (invocation.positionals.map Piece.operand).flatMap Piece.spell =
      invocation.positionals := by
    rw [List.flatMap_map]
    exact List.flatMap_singleton' _
  rw [requestPieces, List.flatMap_append, List.flatMap_append, List.flatMap_append, operands,
    carried_spelled, carried_spelled]

theorem requestPieces_entries :
    (requestPieces invocation authority front back).filterMap Piece.entry =
      carriedEntries invocation (front ++ back) ++
        authorization invocation.command authority := by
  have operands : (invocation.positionals.map Piece.operand).filterMap Piece.entry = [] := by
    rw [List.filterMap_map, List.filterMap_eq_nil_iff]
    exact fun _ _ => rfl
  rw [requestPieces, List.filterMap_append, List.filterMap_append, List.filterMap_append, operands,
    carried_entries, carried_entries, authorityPieces_entries, List.append_nil, carriedEntries,
    carriedEntries, carriedEntries, List.filterMap_append]

theorem requestPieces_positions :
    (requestPieces invocation authority front back).filterMap Piece.position =
      invocation.positionals := by
  have operands : (invocation.positionals.map Piece.operand).filterMap Piece.position =
      invocation.positionals := by
    rw [List.filterMap_map]
    exact List.filterMap_some
  rw [requestPieces, List.filterMap_append, List.filterMap_append, List.filterMap_append, operands,
    carried_positions, carried_positions, authorityPieces_positions, List.append_nil,
    List.append_nil, List.nil_append]

theorem request_replays (applies : Applies invocation.command (front ++ back) bound)
    (well : ReadWell invocation.command invocation.flags invocation.positionals)
    (counted : invocation.command.min ≤ invocation.positionals.length ∧
      invocation.positionals.length ≤ invocation.command.max)
    (binding : (bindings invocation.command authority).map Prod.fst = bound.map js) :
    ∃ again, parseInvocation (invocation.command.path ++
        (front.flatMap (repeated invocation) ++ invocation.positionals ++
          back.flatMap (repeated invocation) ++
          (authorityPieces invocation.command authority).flatMap Piece.spell))
        defaultRegistry = .invocation again ∧ Replays invocation authority again := by
  rw [← requestPieces_spelled]
  refine replay_pieces applies well counted binding ?_ requestPieces_entries
    requestPieces_positions
  intro piece member
  rcases List.mem_append.mp member with own | granted
  · rcases List.mem_append.mp own with before | after
    · rcases List.mem_append.mp before with first | operand
      · exact carried_sound applies well (fun _ => List.mem_append_left _) piece first
      · obtain ⟨value, listed, rfl⟩ := List.mem_map.mp operand
        exact well.operands value listed
    · exact carried_sound applies well (fun _ => List.mem_append_right _) piece after
  · exact authorityPieces_sound applies binding piece granted

theorem authorityPieces_spelled {spec : CommandSpec} {bound : List (JsString × JsString)}
    (bindings : bindings spec authority = bound) :
    (authorityPieces spec authority).flatMap Piece.spell =
      js "--yes" :: bound.flatMap fun binding => [binding.1, binding.2] := by
  rw [authorityPieces, authorization, bindings, List.map_cons, List.flatMap_cons, List.map_map,
    List.flatMap_map]
  rfl

theorem reviewed_replays (member : invocation.command ∈ reviewedCommands)
    (well : ReadWell invocation.command invocation.flags invocation.positionals)
    (counted : invocation.command.min ≤ invocation.positionals.length ∧
      invocation.positionals.length ≤ invocation.command.max) :
    ∃ value, invocation.positionals = [value] ∧
      ∃ again, parseInvocation (invocation.command.path ++ repeated invocation "--root" ++
          [value, js "--yes", js "--proposal-digest", authority.proposalDigest,
            js "--plan-digest", authority.planDigest, js "--plan-time", authority.planTime])
        defaultRegistry = .invocation again ∧ Replays invocation authority again := by
  have one : ∀ spec ∈ reviewedCommands, spec.min = 1 ∧ spec.max = 1 := by decide +kernel
  obtain ⟨least, most⟩ := one invocation.command member
  obtain ⟨value, only⟩ := List.length_eq_one_iff.mp
    (show invocation.positionals.length = 1 by omega)
  have bound := @reviewed_bindings authority _ member
  obtain ⟨again, parsed, replays⟩ := @request_replays invocation _ authority ["--root"] []
    (reviewed_applies member) well counted (by rw [bound]; rfl)
  rw [authorityPieces_spelled bound, only] at parsed
  refine ⟨value, only, again, ?_, replays⟩
  simpa using parsed

/-- The apply argv of every preview parses back to what was previewed, authorized. -/
theorem preview_replays {registry : CommandRegistry} {original argv : List JsString}
    (parsed : parseInvocation original registry = .invocation invocation)
    (printed : previewApplyArgv invocation authority = some argv) :
    ∃ again, parseInvocation argv.tail defaultRegistry = .invocation again ∧
      Replays invocation authority again := by
  obtain ⟨well, counted⟩ := invocation_read parsed
  unfold previewApplyArgv at printed
  split_ifs at printed with authorized change curate incomplete memory config
  · obtain ⟨value, only, replayed⟩ :=
      @reviewed_replays invocation authority (List.mem_append_left _ change) well counted
    rw [← Option.some.inj printed, memoryApplyArgv, only]
    simpa using replayed
  · -- Curation spells its as-of date before its operand, and its root after it.
    rw [not_or] at incomplete
    obtain ⟨asOf, held⟩ := Option.ne_none_iff_exists'.mp
      (show textFlag invocation "--as-of" ≠ none by simpa using incomplete.1)
    have spelled : stringFlag invocation "--as-of" = asOf := by
      unfold textFlag at held
      unfold stringFlag
      split at held <;> simp_all
    have most : invocation.positionals.length ≤ 1 := by
      rw [curate] at counted
      exact counted.2
    obtain ⟨value, only⟩ := List.length_eq_one_iff.mp
      (show invocation.positionals.length = 1 by
        have some := List.length_pos_iff.mpr incomplete.2
        omega)
    obtain ⟨again, read, replays⟩ := @request_replays invocation _ authority ["--as-of"] ["--root"]
      (curate ▸ curate_applies) well counted (by rw [curate, curate_bindings]; rfl)
    refine ⟨again, ?_, replays⟩
    rw [curate, authorityPieces_spelled curate_bindings, only] at read
    rw [← Option.some.inj printed, memoryCurationApplyArgv, only, spelled]
    simpa [repeated, held, memoryCurateCommand, command] using read
  · obtain ⟨value, only, replayed⟩ :=
      @reviewed_replays invocation authority (by simp [reviewedCommands, memory]) well counted
    rw [← Option.some.inj printed, memoryMigrationApplyArgv, only]
    rw [memory] at replayed
    simpa [migrateMemoryCommand, command] using replayed
  · have none' : invocation.positionals = [] := by
      rw [config] at counted
      exact List.length_eq_zero_iff.mp (Nat.le_zero.mp counted.2)
    obtain ⟨again, read, replays⟩ := @request_replays invocation _ authority
      ["--root", "--answers"] [] (config ▸ config_applies) well counted
      (by rw [config, config_bindings]; rfl)
    refine ⟨again, ?_, replays⟩
    rw [config, authorityPieces_spelled config_bindings, none'] at read
    rw [← Option.some.inj printed, configMigrationApplyArgv]
    simpa [migrateConfigCommand, command] using read

end Apply

/-- The displays spell their argv: a POSIX shell always reads it back, PowerShell exactly when
no value holds a typographic quote; and the apply argv of a preview parses back to the request
it was printed for, with its authority. -/
theorem displays_recreate (displayed : List JsString) {registry : CommandRegistry}
    {original applied : List JsString} {invocation : Invocation} {authority : Authority}
    (parsed : parseInvocation original registry = .invocation invocation)
    (printed : previewApplyArgv invocation authority = some applied) :
    posixWords safeUnit (.outside none) (renderPosixCommand displayed) = some displayed ∧
    (powershellCall (renderPowerShellCommand displayed) = some displayed ↔
      ∀ value ∈ displayed, value.any typographic = false) ∧
    ∃ again, parseInvocation applied.tail defaultRegistry = .invocation again ∧
      Replays invocation authority again :=
  ⟨posix_display displayed, powershell_display displayed, preview_replays parsed printed⟩

def sampleArgv : List JsString :=
  [js "memory", js "promote", js "--root", js "my work", js "plan's.json"]

def sampleInvocation : Invocation where
  command := memoryPromoteCommand
  globals := plainGlobals
  flags := [(js "--root", .given (js "my work"))]
  positionals := [js "plan's.json"]

def sampleAuthority : Authority where
  proposalDigest := List.replicate 64 (unit 'a')
  planDigest := List.replicate 64 (unit 'b')
  approvalDigest := List.replicate 64 (unit 'c')
  planTime := js "2026-07-01T09:30:00.000Z"
  proposalDigest_plain := by decide
  planDigest_plain := by decide
  approvalDigest_plain := by decide
  planTime_plain := by decide

def sampleApplied : List JsString :=
  [js "kratos", js "memory", js "promote", js "--root", js "my work", js "plan's.json",
    js "--yes", js "--proposal-digest", List.replicate 64 (unit 'a'), js "--plan-digest",
    List.replicate 64 (unit 'b'), js "--plan-time", js "2026-07-01T09:30:00.000Z"]

theorem sampleArgv_recreated :
    posixWords safeUnit (.outside none) (renderPosixCommand sampleApplied) = some sampleApplied ∧
    (powershellCall (renderPowerShellCommand sampleApplied) = some sampleApplied ↔
      ∀ value ∈ sampleApplied, value.any typographic = false) ∧
    ∃ again, parseInvocation sampleApplied.tail defaultRegistry = .invocation again ∧
      Replays sampleInvocation sampleAuthority again :=
  @displays_recreate sampleApplied defaultRegistry sampleArgv sampleApplied sampleInvocation
    sampleAuthority (by decide +kernel) (by decide +kernel)

/-- PowerShell ends a literal at the typographic apostrophe of a file's name. -/
theorem typographic_name_misread :
    powershellCall (renderPowerShellCommand [js "kratos", js "o\u2019brien.json"]) ≠
      some [js "kratos", js "o\u2019brien.json"] := by
  decide +kernel

end Kratos.Cli
