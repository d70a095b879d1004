/- source: packages/differential/src/normalize.ts
   digest: What one rule changes of an observation, and what a list of rules leaves as it was. -/

import Kratos.Differential.Protection
import Kratos.Foundation.Runs

set_option autoImplicit false

namespace Kratos.Differential

open Foundation.Text Foundation.JsonText Foundation.JsonPlaces Foundation.Collections
open Foundation.Lines (utf8Length)
open Foundation.Sha256 (sha256)
open Foundation.Runs

/-- The count of bytes and the digest describe the content, where one is disclosed. -/
def Described (stream : Json) : Prop :=
  ∀ content, child stream (js "content") = some (.string content) →
    child stream (js "bytes") = some (.integer (utf8Length content)) ∧
      child stream (js "sha256") = some (.string (sha256 content))

def Operation.resynchronizes : Operation → Bool
  | .lineEndings => true
  | .workspacePath => true
  | _ => false

def Operation.replaces : Operation → Bool
  | .replaceJsonValue _ => true
  | _ => false

/-- What a rule does to the container that it writes to. -/
structure Edit (operation : Operation) (key : JsString) (container edited : Json) : Prop where
  beside : ∀ name, name ≠ key → (operation.resynchronizes = true → key = js "content" →
    name ≠ js "bytes" ∧ name ≠ js "sha256") → child edited name = child container name
  described : operation.replaces = false → key = js "content" → Described edited

section Containers

variable {container : Json} {key name value : JsString}

theorem child_writeValue (apart : name ≠ key) :
    child (writeValue container key value) name = child container name := by
  cases container with
  | object members =>
      rw [writeValue]
      split
      · rfl
      · rw [child, mapGet_setMember, if_neg (Ne.symm apart)]
        rfl
  | array items => exact @child_setChild_other (.array items) (.string value) key name apart
  | _ => rfl

theorem child_resynchronizeStream
    (apart : key = js "content" → name ≠ js "bytes" ∧ name ≠ js "sha256") :
    child (resynchronizeStream container key) name = child container name := by
  cases container with
  | object members =>
      rw [resynchronizeStream]
      split
      · rename_i own
        obtain ⟨notBytes, notDigest⟩ := apart (eq_of_beq own)
        split
        · rw [child, mapGet_setMember, if_neg (Ne.symm notDigest), mapGet_setMember,
            if_neg (Ne.symm notBytes)]
          rfl
        · rfl
      · rfl
  | _ => rfl

theorem described_resynchronizeStream (container : Json) (value : JsString) :
    Described (resynchronizeStream (writeValue container (js "content") value) (js "content")) := by
  cases container with
  | object members =>
      have written : writeValue (.object members) (js "content") value =
          .object (setMember members (js "content") (.string value)) := by
        rw [writeValue, if_neg (by simp [accessorName, show js "content" ≠ js "__proto__" by decide])]
      have found : mapGet (setMember members (js "content") (.string value)) (js "content") =
          some (.string value) := by
        rw [mapGet_setMember, if_pos rfl]
      rw [written, resynchronizeStream, if_pos (beq_self_eq_true _), found]
      intro content disclosed
      have kept : js "sha256" ≠ js "content" ∧ js "bytes" ≠ js "content" ∧
          js "sha256" ≠ js "bytes" := by decide
      rw [child, mapGet_setMember, if_neg kept.1, mapGet_setMember, if_neg kept.2.1, found]
        at disclosed
      obtain rfl : value = content := by simpa using disclosed
      constructor
      · rw [child, mapGet_setMember, if_neg kept.2.2, mapGet_setMember, if_pos rfl]
      · rw [child, mapGet_setMember, if_pos rfl]
  | array items =>
      have noIndex : readIndex (js "content") = none := by decide
      intro content disclosed
      rw [writeValue, setChild, noIndex, resynchronizeStream, child, noIndex] at disclosed
      · cases disclosed
      all_goals
        intros
        contradiction
  | _ => exact fun _ disclosed => by cases disclosed

end Containers

section Steps

variable {localeCompare : JsString → JsString → Int} {workspace key : JsString}
  {prototype : Prototype} {world next : World} {rule : NormalizationRule} {container root : Json}
  {place : Place} {value : Slot} {operation : Operation}

theorem inherited_value {name : JsString} {json : Json}
    (inherits : prototype.inherited name = .value json) : ∃ text, json = .string text := by
  rw [Prototype.inherited] at inherits
  split at inherits
  · split at inherits
    · cases inherits
    · cases inherits
  · split at inherits
    · cases inherits
    · cases inherits
    · exact ⟨_, (Slot.value.inj inherits).symm⟩

theorem walk_container {current : Slot}
    (holds : (∃ items, container = .array items) ∨ ∃ members, container = .object members)
    (walked : walk prototype current place = .ok (.value container)) :
    ∃ start, current = .value start ∧ valueAt start place = some container := by
  induction place generalizing current with
  | nil => exact ⟨container, Except.ok.inj walked, rfl⟩
  | cons name place ih =>
      rw [walk] at walked
      split at walked
      · cases walked
      obtain ⟨inner, reached, found⟩ := ih walked
      have scalar : ∀ text, inner ≠ .string text := by
        rintro text rfl
        cases place with
        | nil =>
            obtain rfl := Option.some.inj found
            rcases holds with ⟨_, shape⟩ | ⟨_, shape⟩
            · cases shape
            · cases shape
        | cons => cases found
      cases current with
      | undefined => cases reached
      | function => cases reached
      | prototype =>
          rw [read] at reached
          split at reached
          · split at reached
            · obtain rfl := Slot.value.inj reached
              cases place with
              | nil =>
                  obtain rfl := Option.some.inj found
                  rcases holds with ⟨_, shape⟩ | ⟨_, shape⟩
                  · cases shape
                  · cases shape
              | cons => cases found
            · cases reached
          · obtain ⟨text, shape⟩ := inherited_value reached
            exact absurd shape (scalar text)
      | value start =>
          refine ⟨start, rfl, ?_⟩
          cases start with
          | array items =>
              rw [read] at reached
              cases own : child (.array items) name with
              | none => rw [own] at reached; cases reached
              | some item =>
                  rw [own] at reached
                  rw [valueAt, own, Option.bind_some, Slot.value.inj reached, found]
          | object members =>
              rw [read] at reached
              cases own : mapGet members name with
              | none =>
                  rw [own] at reached
                  obtain ⟨text, shape⟩ := inherited_value reached
                  exact absurd shape (scalar text)
              | some item =>
                  rw [own] at reached
                  rw [valueAt, child, own, Option.bind_some, Slot.value.inj reached, found]
          | _ => cases reached

/-- A rule writes to `Object.prototype` or to a container above its target. -/
theorem locateParent_ok {pointer : JsString} {parent : Parent}
    (located : locateParent prototype root pointer = .ok (parent, key)) :
    ∃ front, decodePointer pointer = .ok (front ++ [key]) ∧
      (parent = .prototype ∨
        ∃ container, parent = .container front container ∧ valueAt root front = some container) := by
  obtain ⟨target, decoded, rest⟩ := bind_ok_iff.mp located
  obtain ⟨reached, walked, found⟩ := bind_ok_iff.mp rest
  obtain ⟨tail, -, shape⟩ := decodePointer_ok decoded
  have filled : target ≠ [] := by
    rw [shape]
    exact fun empty => List.splitOn_ne_nil _ tail (List.map_eq_nil_iff.mp empty)
  have whole : target.dropLast ++ [target.getLastD []] = target := by
    rw [List.getLastD_eq_getLast?, List.getLast?_eq_some_getLast filled]
    exact List.dropLast_append_getLast filled
  have start : ∀ {container : Json},
      ((∃ items, container = .array items) ∨ ∃ members, container = .object members) →
      walk prototype (.value root) target.dropLast = .ok (.value container) →
        valueAt root target.dropLast = some container := by
    intro container holds walked
    obtain ⟨first, same, placed⟩ := walk_container holds walked
    obtain rfl := Slot.value.inj same
    exact placed
  split at found
  · obtain ⟨rfl, rfl⟩ := Prod.mk.inj (Except.ok.inj found)
    exact ⟨_, by rw [whole, decoded], .inl rfl⟩
  · obtain ⟨rfl, rfl⟩ := Prod.mk.inj (Except.ok.inj found)
    exact ⟨_, by rw [whole, decoded], .inr ⟨_, rfl, start (.inl ⟨_, rfl⟩) walked⟩⟩
  · obtain ⟨rfl, rfl⟩ := Prod.mk.inj (Except.ok.inj found)
    exact ⟨_, by rw [whole, decoded], .inr ⟨_, rfl, start (.inr ⟨_, rfl⟩) walked⟩⟩
  · cases found

theorem applyOperation_prototype
    (applied : applyOperation localeCompare workspace world .prototype key value operation =
      .ok next) : next.observation = world.observation := by
  cases operation with
  | lineEndings =>
      simp only [applyOperation] at applied
      split at applied
      · cases applied
      · rw [← Except.ok.inj applied]
        rfl
  | workspacePath =>
      simp only [applyOperation] at applied
      split at applied
      · cases applied
      · split at applied
        · cases applied
        · rw [← Except.ok.inj applied]
          rfl
  | replaceJsonValue token => rw [← Except.ok.inj applied]
  | sortJsonArray identityKey =>
      simp only [applyOperation] at applied
      split at applied
      · cases applied
      · obtain ⟨sorted, -, finished⟩ := bind_ok_iff.mp applied
        rw [← Except.ok.inj finished]
  | removeField justification => rw [← Except.ok.inj applied]

/-- A rewritten string changes its own member, and a content its description. -/
theorem edit_rewrite (value : JsString) (resynchronizes : operation.resynchronizes = true) :
    Edit operation key container (resynchronizeStream (writeValue container key value) key) where
  beside _ apart beside := by
    rw [child_resynchronizeStream (beside resynchronizes), child_writeValue apart]
  described _ content := by
    subst content
    exact described_resynchronizeStream container value

theorem readIndex_content : readIndex (js "content") = none := by decide

theorem described_of_not_string {stream : Json}
    (other : ∀ content, child stream (js "content") ≠ some (.string content)) : Described stream :=
  fun content disclosed => absurd disclosed (other content)

theorem applyOperation_container
    (applied : applyOperation localeCompare workspace world (.container place container) key value
      operation = .ok next) :
    ∃ edited, next.observation = replaceAt world.observation place edited ∧
      Edit operation key container edited := by
  cases operation with
  | lineEndings =>
      simp only [applyOperation] at applied
      split at applied
      · cases applied
      · rw [← Except.ok.inj applied]
        exact ⟨_, rfl, edit_rewrite _ rfl⟩
  | workspacePath =>
      simp only [applyOperation] at applied
      split at applied
      · cases applied
      · split at applied
        · cases applied
        · rw [← Except.ok.inj applied]
          exact ⟨_, rfl, edit_rewrite _ rfl⟩
  | replaceJsonValue token =>
      rw [← Except.ok.inj applied]
      exact ⟨_, rfl, fun _ apart _ => child_writeValue apart, nofun⟩
  | sortJsonArray identityKey =>
      simp only [applyOperation] at applied
      split at applied
      · cases applied
      · obtain ⟨sorted, -, finished⟩ := bind_ok_iff.mp applied
        rw [← Except.ok.inj finished]
        refine ⟨_, rfl, fun _ apart _ => child_setChild_other apart, ?_⟩
        rintro - rfl
        refine described_of_not_string fun content disclosed => ?_
        cases container with
        | array items =>
            rw [setChild, readIndex_content, child, readIndex_content] at disclosed
            cases disclosed
        | object members =>
            rw [setChild, child, mapGet_setMember, if_pos rfl] at disclosed
            cases disclosed
        | _ => cases disclosed
  | removeField justification =>
      simp only [applyOperation] at applied
      split at applied
      · rename_i members
        rw [← Except.ok.inj applied]
        refine ⟨_, rfl, fun _ apart _ => mapGet_removeMember apart, ?_⟩
        rintro - rfl
        refine described_of_not_string fun content disclosed => ?_
        have listed := List.mem_filter.mp (mapGet_mem disclosed)
        simp at listed
      · cases applied

/-- A rule leaves the observation as it is, or edits one container above its target. -/
theorem normalizeRule_cases
    (normalized : normalizeRule localeCompare workspace world rule = .ok next) :
    next.observation = world.observation ∨
      ∃ front key container edited, isProtected rule.pointer = false ∧
        decodePointer rule.pointer = .ok (front ++ [key]) ∧
        valueAt world.observation front = some container ∧
        next.observation = replaceAt world.observation front edited ∧
        Edit rule.operation key container edited := by
  rw [normalizeRule] at normalized
  split at normalized
  · cases normalized
  rename_i free
  split at normalized
  · exact .inl (by rw [Except.ok.inj normalized])
  obtain ⟨⟨parent, key⟩, located, rest⟩ := bind_ok_iff.mp normalized
  obtain ⟨value, -, applied⟩ := bind_ok_iff.mp rest
  obtain ⟨front, decoded, rfl | ⟨container, rfl, placed⟩⟩ := locateParent_ok located
  · exact .inl (applyOperation_prototype applied)
  · obtain ⟨edited, written, edit⟩ := applyOperation_container applied
    exact .inr ⟨front, key, container, edited, by simpa using free, decoded, placed, written, edit⟩

end Steps

section Frame

variable {operation : Operation} {root container edited : Json} {front place : Place}
  {key : JsString}

theorem valueAt_edited (present : valueAt root front = some container)
    (edit : Edit operation key container edited) (notTarget : ¬front ++ [key] <+: place)
    (notBeside : operation.resynchronizes = true → key = js "content" →
      ¬front ++ [js "bytes"] <+: place ∧ ¬front ++ [js "sha256"] <+: place)
    (notAbove : ¬place <+: front) :
    valueAt (replaceAt root front edited) place = valueAt root place := by
  by_cases below : front <+: place
  · obtain ⟨rest, rfl⟩ := below
    cases rest with
    | nil => exact absurd (by rw [List.append_nil]) notAbove
    | cons name rest =>
        have named : ∀ other, ¬front ++ [other] <+: front ++ name :: rest → name ≠ other := by
          rintro other apart rfl
          exact apart ⟨rest, by rw [List.append_assoc, List.singleton_append]⟩
        rw [valueAt_replaceAt_below (by rw [present]; rfl), valueAt_append, present,
          Option.bind_some, valueAt, valueAt,
          edit.beside name (named key notTarget) fun resynchronizes content =>
            (notBeside resynchronizes content).imp (named _) (named _)]
  · exact valueAt_replaceAt_apart below notAbove

end Frame

/-- The stream under a name of the process. -/
def DescribedAt (root : Json) (stream : JsString) : Prop :=
  ∀ container, valueAt root [js "process", stream] = some container → Described container

/-- What normalization promises to leave alone: decisions keep their value and their place, and
of the process, the filesystem and the repository only disclosed contents change, described. -/
structure Kept (before after : Json) : Prop where
  decisions : ∀ index inner field, field ∈ decisionFields → ∀ value,
    valueAt before (artifactPlace index (inner ++ [field])) = some value →
      valueAt after (artifactPlace index (inner ++ [field])) = some value
  process : ∀ name rest, name ≠ js "stdout" → name ≠ js "stderr" →
    valueAt after (js "process" :: name :: rest) = valueAt before (js "process" :: name :: rest)
  streams : ∀ stream name rest, name ∉ [js "content", js "bytes", js "sha256"] →
    valueAt after (js "process" :: stream :: name :: rest) =
      valueAt before (js "process" :: stream :: name :: rest)
  filesystem : ∀ rest, valueAt after (js "filesystem" :: rest) =
    valueAt before (js "filesystem" :: rest)
  git : ∀ rest, valueAt after (js "git" :: rest) = valueAt before (js "git" :: rest)
  described : ∀ stream, DescribedAt before stream → DescribedAt after stream

theorem Kept.refl (root : Json) : Kept root root where
  decisions _ _ _ _ _ found := found
  process _ _ _ _ := rfl
  streams _ _ _ _ := rfl
  filesystem _ := rfl
  git _ := rfl
  described _ described := described

theorem Kept.trans {first second third : Json} (left : Kept first second)
    (right : Kept second third) : Kept first third where
  decisions index inner field listed value found :=
    right.decisions index inner field listed value
      (left.decisions index inner field listed value found)
  process name rest notOut notErr :=
    (right.process name rest notOut notErr).trans (left.process name rest notOut notErr)
  streams stream name rest other :=
    (right.streams stream name rest other).trans (left.streams stream name rest other)
  filesystem rest := (right.filesystem rest).trans (left.filesystem rest)
  git rest := (right.git rest).trans (left.git rest)
  described stream described := right.described stream (left.described stream described)

/-- The rules that the guard is right to let through: the member of an artifact that a rule
rewrites holds no decision field, nor do the members `bytes` and `sha256` beside a `content`; a
pointer broken over lines names none; and a stream's content is not replaced by a token. -/
structure Harmless (world : World) (rule : NormalizationRule) : Prop where
  hollow : ∀ target, decodePointer rule.pointer = .ok target → 3 < target.length →
    ∀ inner, ∀ field ∈ decisionFields,
      valueAt world.observation (target ++ (inner ++ [field])) = none
  beside : rule.operation.resynchronizes = true → ∀ front,
    decodePointer rule.pointer = .ok (front ++ [js "content"]) → 2 < front.length →
      ∀ name ∈ [js "bytes", js "sha256"], ∀ inner, ∀ field ∈ decisionFields,
        valueAt world.observation (front ++ name :: (inner ++ [field])) = none
  oneLine : rule.pointer.any isLineTerminator = true → ∀ target,
    decodePointer rule.pointer = .ok target → ∀ segment ∈ target, segment ∉ decisionFields
  described : rule.operation.replaces = true →
    rule.pointer ≠ js "/process/stdout/content" ∧ rule.pointer ≠ js "/process/stderr/content"

section Keeping

variable {localeCompare : JsString → JsString → Int} {workspace : JsString}
  {world next : World} {rule : NormalizationRule} {front : Place} {key : JsString}

/-- A rule that reaches the process, the filesystem or the repository writes to a stream. -/
theorem Harmless.stream (harmless : Harmless world rule) {root : String} {rest : Place}
    (listed : root ∈ ["/process", "/filesystem", "/git"])
    (decoded : decodePointer rule.pointer = .ok (front ++ [key]))
    (free : isProtected rule.pointer = false) (shape : front ++ [key] = (js root).tail :: rest) :
    ∃ stream, (stream = js "stdout" ∨ stream = js "stderr") ∧ front = [js "process", stream] ∧
      key = js "content" ∧ rule.operation.replaces = false := by
  have kept : rule.pointer = js "/process/stdout/content" ∨
      rule.pointer = js "/process/stderr/content" → rule.operation.replaces = false := by
    intro content
    by_contra replaces
    obtain ⟨notOut, notErr⟩ := harmless.described (by simpa using replaces)
    exact content.elim notOut notErr
  have reached := target_root listed (by rw [← shape, decoded]) free
  rw [← shape] at reached
  rcases reached with ⟨out, target⟩ | ⟨err, target⟩
  · have parts : front ++ [key] = [js "process", js "stdout"] ++ [js "content"] := target
    obtain ⟨fronts, keys⟩ := List.append_inj' parts rfl
    exact ⟨_, .inl rfl, fronts, List.head_eq_of_cons_eq keys, kept (.inl out)⟩
  · have parts : front ++ [key] = [js "process", js "stderr"] ++ [js "content"] := target
    obtain ⟨fronts, keys⟩ := List.append_inj' parts rfl
    exact ⟨_, .inr rfl, fronts, List.head_eq_of_cons_eq keys, kept (.inr err)⟩

theorem target_head {name word : JsString} {rest : Place} (apart : name ≠ word)
    (touches : front ++ [key] <+: word :: rest ∨ front ++ [name] <+: word :: rest ∨
      word :: rest <+: front) : ∃ more, front ++ [key] = word :: more := by
  cases front with
  | nil =>
      rcases touches with target | beside | above
      · exact ⟨[], by rw [(List.cons_prefix_cons.mp target).1]; rfl⟩
      · exact absurd (List.cons_prefix_cons.mp beside).1 apart
      · exact absurd (List.prefix_nil.mp above) (List.cons_ne_nil word rest)
  | cons first front =>
      refine ⟨front ++ [key], ?_⟩
      rcases touches with target | beside | above
      · rw [(List.cons_prefix_cons.mp target).1]; rfl
      · rw [(List.cons_prefix_cons.mp beside).1]; rfl
      · rw [(List.cons_prefix_cons.mp above).1]; rfl

theorem Harmless.decision (harmless : Harmless world rule)
    (decoded : decodePointer rule.pointer = .ok (front ++ [key]))
    (free : isProtected rule.pointer = false) {container edited value : Json}
    (present : valueAt world.observation front = some container)
    (edit : Edit rule.operation key container edited) {index : Nat} {inner : Place}
    {field : JsString} (listed : field ∈ decisionFields)
    (found : valueAt world.observation (artifactPlace index (inner ++ [field])) = some value) :
    valueAt (replaceAt world.observation front edited) (artifactPlace index (inner ++ [field])) =
      some value := by
  have outside := @target_not_below rule.pointer field (front ++ [key]) inner index decoded free
    listed fun broken => harmless.oneLine broken _ decoded
  have last : artifactPlace index (inner ++ [field]) = artifactPlace index inner ++ [field] := rfl
  rw [valueAt_edited present edit, found]
  · intro above
    have deep := target_above decoded free above
    rw [last, List.prefix_concat_iff] at above
    rcases above with own | ⟨before, whole⟩
    · exact outside ⟨[], by rw [List.append_nil, own, last]⟩
    · have hollow := harmless.hollow _ decoded deep before field listed
      rw [last, ← whole, List.append_assoc, hollow] at found
      cases found
  · rintro resynchronizes rfl
    have apart : ∀ name ∈ [js "bytes", js "sha256"],
        ¬front ++ [name] <+: artifactPlace index (inner ++ [field]) := by
      intro name named above
      have plain : ∀ name ∈ [js "bytes", js "sha256"], name ∉ decisionFields ∧
          name ≠ js "structured" ∧ name ≠ js "value" ∧ name.all isDigit = false := by decide
      obtain ⟨noDecision, notFirst, notThird, noIndex⟩ := plain name named
      have deep : 2 < front.length := by
        by_contra short
        rcases front with _ | ⟨first, _ | ⟨second, _ | ⟨third, front⟩⟩⟩
        · exact notFirst (List.cons_prefix_cons.mp above).1
        · have numbered := (List.cons_prefix_cons.mp (List.cons_prefix_cons.mp above).2).1
          have digits := List.all_eq_true.mpr (decimal_digits index)
          rw [← numbered, noIndex] at digits
          cases digits
        · have deeper := (List.cons_prefix_cons.mp (List.cons_prefix_cons.mp above).2).2
          exact notThird (List.cons_prefix_cons.mp deeper).1
        · simp only [List.length_cons] at short
          omega
      rw [last, List.prefix_concat_iff] at above
      rcases above with own | ⟨before, whole⟩
      · obtain ⟨-, equal⟩ := List.append_inj' own rfl
        exact noDecision (List.head_eq_of_cons_eq equal ▸ listed)
      · have hollow := harmless.beside resynchronizes front decoded deep name named before field
          listed
        rw [last, ← whole, List.append_assoc, List.append_assoc, List.singleton_append, hollow]
          at found
        cases found
    exact ⟨apart _ (by simp), apart _ (by simp)⟩
  · exact fun above => outside (above.trans (List.prefix_append front [key]))

theorem Kept.step (harmless : Harmless world rule)
    (normalized : normalizeRule localeCompare workspace world rule = .ok next) :
    Kept world.observation next.observation := by
  rcases normalizeRule_cases normalized with
    same | ⟨front, key, container, edited, free, decoded, present, written, edit⟩
  · rw [same]
    exact Kept.refl _
  rw [written]
  have apart : ∀ root ∈ ["/process", "/filesystem", "/git"],
      js "bytes" ≠ (js root).tail ∧ js "sha256" ≠ (js root).tail := by
    simp only [List.forall_mem_cons, List.not_mem_nil, false_implies, implies_true, and_true]
    decide
  -- below a root only a stream is touched
  have untouched : ∀ root ∈ ["/process", "/filesystem", "/git"], ∀ rest,
      (∀ stream, stream = js "stdout" ∨ stream = js "stderr" → front = [js "process", stream] →
        key = js "content" → rule.operation.replaces = false →
          (∀ name ∈ [js "content", js "bytes", js "sha256"],
            ¬[js "process", stream, name] <+: (js root).tail :: rest) ∧
          ¬(js root).tail :: rest <+: [js "process", stream]) →
      valueAt (replaceAt world.observation front edited) ((js root).tail :: rest) =
        valueAt world.observation ((js root).tail :: rest) := by
    intro root listed rest beside
    refine valueAt_edited present edit (fun target => ?_) (fun _ content => ⟨fun bytes => ?_,
      fun digest => ?_⟩) fun above => ?_
    · obtain ⟨more, shape⟩ := target_head (apart root listed).1 (.inl target)
      obtain ⟨stream, which, rfl, rfl, kept⟩ := harmless.stream listed decoded free shape
      exact (beside stream which rfl rfl kept).1 _ (by simp) target
    · obtain ⟨more, shape⟩ := @target_head _ key _ _ _ (apart root listed).1 (.inr (.inl bytes))
      obtain ⟨stream, which, rfl, rfl, kept⟩ := harmless.stream listed decoded free shape
      exact (beside stream which rfl rfl kept).1 _ (by simp) bytes
    · obtain ⟨more, shape⟩ := @target_head _ key _ _ _ (apart root listed).2 (.inr (.inl digest))
      obtain ⟨stream, which, rfl, rfl, kept⟩ := harmless.stream listed decoded free shape
      exact (beside stream which rfl rfl kept).1 _ (by simp) digest
    · obtain ⟨more, shape⟩ := @target_head _ key _ _ _ (apart root listed).1 (.inr (.inr above))
      obtain ⟨stream, which, rfl, rfl, kept⟩ := harmless.stream listed decoded free shape
      exact (beside stream which rfl rfl kept).2 above
  constructor
  case decisions =>
    exact fun index inner field listed value found =>
      harmless.decision decoded free present edit listed found
  case process =>
    intro name rest notOut notErr
    refine untouched "/process" (by simp) (name :: rest) fun stream which _ _ _ => ⟨?_, ?_⟩
    · intro other _ above
      have same := (List.cons_prefix_cons.mp (List.cons_prefix_cons.mp above).2).1
      subst same
      exact which.elim notOut notErr
    · intro above
      have same := (List.cons_prefix_cons.mp (List.cons_prefix_cons.mp above).2).1
      subst same
      exact which.elim notOut notErr
  case streams =>
    intro stream name rest other
    refine untouched "/process" (by simp) (stream :: name :: rest) fun touched _ _ _ _ => ⟨?_, ?_⟩
    · intro written listed above
      have deeper := (List.cons_prefix_cons.mp (List.cons_prefix_cons.mp above).2).2
      exact other ((List.cons_prefix_cons.mp deeper).1 ▸ listed)
    · intro above
      have short := above.length_le
      simp only [List.length_cons, List.length_nil] at short
      omega
  case filesystem =>
    intro rest
    refine untouched "/filesystem" (by simp) rest fun stream _ _ _ _ => ⟨?_, ?_⟩
    · exact fun _ _ above => absurd (List.cons_prefix_cons.mp above).1 (by decide)
    · exact fun above => absurd (List.cons_prefix_cons.mp above).1 (by decide)
  case git =>
    intro rest
    refine untouched "/git" (by simp) rest fun stream _ _ _ _ => ⟨?_, ?_⟩
    · exact fun _ _ above => absurd (List.cons_prefix_cons.mp above).1 (by decide)
    · exact fun above => absurd (List.cons_prefix_cons.mp above).1 (by decide)
  case described =>
    intro stream described changed placed
    by_cases own : front = [js "process", stream]
    · have shape : front ++ [key] = (js "/process").tail :: [stream, key] := by rw [own]; rfl
      obtain ⟨other, -, -, content, kept⟩ := harmless.stream (by simp) decoded free shape
      have below := @valueAt_replaceAt_below _ edited _ (by rw [present]; rfl) []
      rw [List.append_nil, own] at below
      rw [own] at placed
      rw [below] at placed
      obtain rfl : edited = changed := Option.some.inj placed
      exact edit.described kept content
    · refine described changed ?_
      rw [← placed]
      refine (untouched "/process" (by simp) [stream] fun touched _ shape _ _ => ⟨?_, ?_⟩).symm
      · intro name _ above
        have long := above.length_le
        simp only [List.length_cons, List.length_nil] at long
        omega
      · intro above
        have same := (List.cons_prefix_cons.mp (List.cons_prefix_cons.mp above).2).1
        exact own (by rw [shape, same])

theorem Kept.run {start : World} {rules : List NormalizationRule}
    (normalized : Reaches (normalizeRule localeCompare workspace) start rules next)
    (harmless : Throughout (normalizeRule localeCompare workspace) Harmless start rules) :
    Kept start.observation next.observation :=
  Reaches.invariant_of (fun world => Kept start.observation world.observation) Harmless normalized
    harmless (Kept.refl start.observation) fun _ _ _ kept here step =>
      kept.trans (Kept.step here step)

end Keeping

end Kratos.Differential
