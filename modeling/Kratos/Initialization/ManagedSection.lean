/- source: domain/init/managed-section.ts
   digest: The plan for a file with a managed section, and what it keeps of the file. -/

import Kratos.Foundation.Substrings
import Kratos.Foundation.Text

set_option autoImplicit false

namespace Kratos.Initialization

open Foundation.Text Foundation.Substrings

def MANAGED_SECTION_BEGIN : JsString := js "<!-- BEGIN KRATOS MANAGED SECTION -->"

def MANAGED_SECTION_END : JsString := js "<!-- END KRATOS MANAGED SECTION -->"

/-- What was observed at a managed destination. -/
inductive ManagedFileObservation
  | absent
  | other
  | file (text : JsString)
  deriving DecidableEq, Repr

structure ManagedFileAuthorization where
  merge : Bool
  force : Bool
  deriving DecidableEq, Repr

/-- `guard.outside_allow` and `runtime.state_corrupt`. -/
inductive ManagedFileRefusal
  | outsideAllow | stateCorrupt
  deriving DecidableEq, Repr

inductive ManagedFilePlan
  | write (content : JsString)
  | refused (reasonCode : ManagedFileRefusal)
  deriving DecidableEq, Repr

/-- `Section`. -/
inductive SectionPlace
  | absent
  | found (start stop : Nat)
  | malformed
  deriving DecidableEq, Repr

/-- Where the managed section sits; a position is none where `indexOf` is negative. -/
def locateSection (text : JsString) : SectionPlace :=
  match indexOf MANAGED_SECTION_BEGIN text, indexOf MANAGED_SECTION_END text with
  | none, none => .absent
  | none, some _ => .malformed
  | some _, none => .malformed
  | some start, some stop =>
      if decide (stop < start) || includesFrom MANAGED_SECTION_BEGIN text (start + 1) ||
          includesFrom MANAGED_SECTION_END text (stop + 1) then .malformed
      else .found start (stop + MANAGED_SECTION_END.length)

/-- `text.slice(start, stop)`. -/
def slice (text : JsString) (start stop : Nat) : JsString := (text.take stop).drop start

def appended (existing generated : JsString) : JsString :=
  existing ++ (if existing.getLast? = some (unit '\n') then js "\n" else js "\n\n") ++ generated

def planManagedFile (existing : ManagedFileObservation) (generated : JsString)
    (authorization : ManagedFileAuthorization) : ManagedFilePlan :=
  match locateSection generated with
  | .found start stop =>
      match existing with
      | .other => .refused .outsideAllow
      | .absent => .write generated
      | .file text =>
          match locateSection text with
          | .malformed => .refused .stateCorrupt
          | .found currentStart currentStop =>
              .write (text.take currentStart ++ slice generated start stop ++ text.drop currentStop)
          | .absent =>
              if authorization.force then .write generated
              else if authorization.merge then .write (appended text generated)
              else .refused .outsideAllow
  | _ => .refused .stateCorrupt

def extractManagedSection (text : JsString) : Option JsString :=
  match locateSection text with
  | .found start stop => some (slice text start stop)
  | _ => none

section Markers

/-- The text between two markers, with them. -/
def markedBlock (body : JsString) : JsString := MANAGED_SECTION_BEGIN ++ body ++ MANAGED_SECTION_END

/-- The text has one section: each marker stands in it once, around this body. -/
structure Sectioned (before body after text : JsString) : Prop where
  whole : text = before ++ (markedBlock body ++ after)
  begins : OnlyAt MANAGED_SECTION_BEGIN text before.length
  ends : OnlyAt MANAGED_SECTION_END text
    (before.length + (MANAGED_SECTION_BEGIN.length + body.length))

def Unmarked (text : JsString) : Prop :=
  Free MANAGED_SECTION_BEGIN text ∧ Free MANAGED_SECTION_END text

/-- A marker without the other, a marker at two places, or an end marker before a begin marker. -/
def Malformed (text : JsString) : Prop :=
  (¬ Free MANAGED_SECTION_BEGIN text ∧ Free MANAGED_SECTION_END text) ∨
    (Free MANAGED_SECTION_BEGIN text ∧ ¬ Free MANAGED_SECTION_END text) ∨
    (∃ marker ∈ [MANAGED_SECTION_BEGIN, MANAGED_SECTION_END], ∃ first second,
      first ≠ second ∧ OccursAt marker text first ∧ OccursAt marker text second) ∨
    ∃ start stop, OccursAt MANAGED_SECTION_BEGIN text start ∧
      OccursAt MANAGED_SECTION_END text stop ∧ stop < start

/-- The body has no marker of its own. -/
structure Sole (body : JsString) : Prop where
  begins : OnlyAt MANAGED_SECTION_BEGIN (markedBlock body) 0
  ends : OnlyAt MANAGED_SECTION_END (markedBlock body) (MANAGED_SECTION_BEGIN.length + body.length)

theorem begin_ne_nil : MANAGED_SECTION_BEGIN ≠ [] := by decide

theorem end_ne_nil : MANAGED_SECTION_END ≠ [] := by decide

private theorem opening : unit '<' ∉ MANAGED_SECTION_BEGIN.tail ∧
    unit '<' ∉ MANAGED_SECTION_END.tail := by decide

private theorem closing : unit '>' ∉ MANAGED_SECTION_BEGIN.dropLast ∧
    unit '>' ∉ MANAGED_SECTION_END.dropLast := by decide

private theorem breaking : unit '\n' ∉ MANAGED_SECTION_BEGIN ∧ unit '\n' ∉ MANAGED_SECTION_END := by
  decide

theorem markedBlock_opens (body : JsString) : ∃ rest, markedBlock body = unit '<' :: rest :=
  ⟨MANAGED_SECTION_BEGIN.tail ++ body ++ MANAGED_SECTION_END, rfl⟩

theorem markedBlock_closes (body : JsString) : ∃ front, markedBlock body = front ++ [unit '>'] := by
  refine ⟨MANAGED_SECTION_BEGIN ++ body ++ MANAGED_SECTION_END.dropLast, ?_⟩
  have last : MANAGED_SECTION_END = MANAGED_SECTION_END.dropLast ++ [unit '>'] := by decide
  rw [markedBlock, List.append_assoc _ _ [unit '>'], ← last]

theorem markedBlock_length (body : JsString) : (markedBlock body).length =
    MANAGED_SECTION_BEGIN.length + body.length + MANAGED_SECTION_END.length := by
  simp only [markedBlock, List.length_append]

private theorem apart_block {marker : JsString} (opens : unit '<' ∉ marker.tail)
    (closes : unit '>' ∉ marker.dropLast) (before body after : JsString) :
    Apart marker before (markedBlock body ++ after) ∧ Apart marker (markedBlock body) after := by
  obtain ⟨rest, starts⟩ := markedBlock_opens body
  obtain ⟨front, stops⟩ := markedBlock_closes body
  constructor
  · rw [starts, List.cons_append]
    exact Apart.of_head opens before _
  · rw [stops]
    exact Apart.of_last closes front after

theorem sectioned_iff {before body after : JsString} :
    Sectioned before body after (before ++ (markedBlock body ++ after)) ↔
      Unmarked before ∧ Sole body ∧ Unmarked after := by
  have length := markedBlock_length body
  have someBegin : 0 < MANAGED_SECTION_BEGIN.length := by decide
  have someEnd : 0 < MANAGED_SECTION_END.length := by decide
  obtain ⟨beginBefore, beginAfter⟩ := apart_block opening.1 closing.1 before body after
  obtain ⟨endBefore, endAfter⟩ := apart_block opening.2 closing.2 before body after
  have begins := onlyAt_between 0 begin_ne_nil beginBefore beginAfter (by omega)
  have ends := onlyAt_between (MANAGED_SECTION_BEGIN.length + body.length) end_ne_nil
    endBefore endAfter (by omega)
  rw [Nat.add_zero] at begins
  constructor
  · intro sectioned
    obtain ⟨beginFront, beginOnly, beginBack⟩ := begins.mp sectioned.begins
    obtain ⟨endFront, endOnly, endBack⟩ := ends.mp sectioned.ends
    exact ⟨⟨beginFront, endFront⟩, ⟨beginOnly, endOnly⟩, ⟨beginBack, endBack⟩⟩
  · rintro ⟨front, sole, back⟩
    exact ⟨rfl, begins.mpr ⟨front.1, sole.begins, back.1⟩, ends.mpr ⟨front.2, sole.ends, back.2⟩⟩

theorem Sectioned.splice {before body after text front inner back other : JsString}
    (current : Sectioned before body after text) (generated : Sectioned front inner back other) :
    Sectioned before inner after (before ++ (markedBlock inner ++ after)) := by
  obtain rfl := current.whole
  obtain rfl := generated.whole
  obtain ⟨beforeFree, -, afterFree⟩ := sectioned_iff.mp current
  obtain ⟨-, sole, -⟩ := sectioned_iff.mp generated
  exact sectioned_iff.mpr ⟨beforeFree, sole, afterFree⟩

theorem Sectioned.below {text separator front inner back generated : JsString}
    (free : Unmarked text) (separated : separator = js "\n" ∨ separator = js "\n\n")
    (source : Sectioned front inner back generated) :
    Sectioned (text ++ separator ++ front) inner back (text ++ separator ++ generated) := by
  obtain rfl := source.whole
  obtain ⟨frontFree, sole, backFree⟩ := sectioned_iff.mp source
  have joined : ∀ marker : JsString, marker ≠ [] → unit '\n' ∉ marker → Free marker text →
      Free marker front → Free marker (text ++ separator ++ front) := by
    intro marker some absent above below
    have noHead : unit '\n' ∉ marker.tail := fun member => absent (List.mem_of_mem_tail member)
    have noLast : unit '\n' ∉ marker.dropLast := fun member => absent (List.mem_of_mem_dropLast member)
    have alone : Free marker separator := by
      intro place occurs
      obtain ⟨rest, whole⟩ := occurs
      cases marker with
      | nil => exact some rfl
      | cons first marker =>
          have inside : first ∈ separator.drop place := by
            rw [← whole]
            exact List.mem_cons_self
          have member := List.mem_of_mem_drop inside
          rcases separated with rfl | rfl
          · exact absent (List.mem_singleton.mp member ▸ List.mem_cons_self)
          · have same : first = unit '\n' := by
              rcases List.mem_cons.mp member with same | same
              · exact same
              · exact List.mem_singleton.mp same
            exact absent (same ▸ List.mem_cons_self)
    obtain ⟨rest, starts⟩ : ∃ rest, separator = unit '\n' :: rest := by
      rcases separated with rfl | rfl
      · exact ⟨[], rfl⟩
      · exact ⟨[unit '\n'], rfl⟩
    obtain ⟨initial, stops⟩ : ∃ initial, separator = initial ++ [unit '\n'] := by
      rcases separated with rfl | rfl
      · exact ⟨[], rfl⟩
      · exact ⟨[unit '\n'], rfl⟩
    have onTop : Apart marker text separator := by
      rw [starts]
      exact Apart.of_head noHead text rest
    have underneath : Apart marker (text ++ separator) front := by
      rw [stops, ← List.append_assoc]
      exact Apart.of_last noLast _ front
    exact (free_append some underneath).mpr ⟨(free_append some onTop).mpr ⟨above, alone⟩, below⟩
  have whole : text ++ separator ++ (front ++ (markedBlock inner ++ back)) =
      (text ++ separator ++ front) ++ (markedBlock inner ++ back) := by
    simp only [List.append_assoc]
  rw [whole]
  exact sectioned_iff.mpr ⟨⟨joined _ begin_ne_nil breaking.1 free.1 frontFree.1,
    joined _ end_ne_nil breaking.2 free.2 frontFree.2⟩, sole, backFree⟩

end Markers

section Location

variable {text : JsString}

theorem locateSection_absent : locateSection text = .absent ↔ Unmarked text := by
  rw [Unmarked, ← indexOf_eq_none_iff, ← indexOf_eq_none_iff, locateSection]
  cases indexOf MANAGED_SECTION_BEGIN text with
  | none => cases indexOf MANAGED_SECTION_END text with
    | none => simp
    | some stop => simp
  | some start => cases indexOf MANAGED_SECTION_END text with
    | none => simp
    | some stop =>
        dsimp only
        split <;> simp

theorem Sectioned.locate {before body after : JsString} (sectioned : Sectioned before body after text) :
    locateSection text = .found before.length (before.length + (markedBlock body).length) := by
  obtain ⟨beginFound, beginLast⟩ := sectioned.begins.indexOf
  obtain ⟨endFound, endLast⟩ := sectioned.ends.indexOf
  have order : decide (before.length + (MANAGED_SECTION_BEGIN.length + body.length) <
      before.length) = false := by
    rw [decide_eq_false_iff_not]
    omega
  rw [locateSection, beginFound, endFound]
  dsimp only
  rw [beginLast, endLast, order, markedBlock_length]
  simp only [Bool.or_false, Bool.false_eq_true, if_false]
  rw [Nat.add_assoc]

theorem locateSection_found {start stop : Nat} (located : locateSection text = .found start stop) :
    ∃ before body after, Sectioned before body after text := by
  rw [locateSection] at located
  cases beginFound : indexOf MANAGED_SECTION_BEGIN text with
  | none => cases endFound : indexOf MANAGED_SECTION_END text with
    | none => simp [beginFound, endFound] at located
    | some last => simp [beginFound, endFound] at located
  | some first => cases endFound : indexOf MANAGED_SECTION_END text with
    | none => simp [beginFound, endFound] at located
    | some last =>
        simp only [beginFound, endFound] at located
        split at located
        · cases located
        · rename_i accepted
          simp only [Bool.or_eq_true, decide_eq_true_eq, not_or, Bool.not_eq_true] at accepted
          obtain ⟨⟨order, beginOnce⟩, endOnce⟩ := accepted
          have begins := onlyAt_of_indexOf beginFound beginOnce
          have ends := onlyAt_of_indexOf endFound endOnce
          have beginAt := (begins first).mpr rfl
          have endAt := (ends last).mpr rfl
          have different : first ≠ last := by
            rintro rfl
            have same : MANAGED_SECTION_END <+: MANAGED_SECTION_BEGIN :=
              List.prefix_of_prefix_length_le endAt beginAt (by decide)
            exact absurd same (by decide)
          have starts : MANAGED_SECTION_END = unit '<' :: MANAGED_SECTION_END.tail := rfl
          have after := beginAt.after starts opening.1 endAt (by omega)
          obtain ⟨before, body, rest, whole, firstPlace, lastPlace⟩ :=
            split_two beginAt endAt after end_ne_nil
          refine ⟨before, body, rest, ?_, firstPlace ▸ begins, ?_⟩
          · rw [whole, markedBlock, List.append_assoc (MANAGED_SECTION_BEGIN ++ body)]
          · rw [firstPlace, ← Nat.add_assoc, lastPlace]
            exact ends

theorem locateSection_malformed (malformed : Malformed text) : locateSection text = .malformed := by
  have notAbsent : ¬ Unmarked text := by
    rintro ⟨beginFree, endFree⟩
    rcases malformed with ⟨some, -⟩ | ⟨-, some⟩ | ⟨marker, listed, first, -, -, occurs, -⟩ |
      ⟨start, -, occurs, -⟩
    · exact some beginFree
    · exact some endFree
    · rcases List.mem_cons.mp listed with rfl | last
      · exact beginFree first occurs
      · exact endFree first (List.mem_singleton.mp last ▸ occurs)
    · exact beginFree start occurs
  have notFound : ∀ before body after, ¬ Sectioned before body after text := by
    intro before body after sectioned
    have beginAt := (sectioned.begins _).mpr rfl
    have endAt := (sectioned.ends _).mpr rfl
    rcases malformed with ⟨-, free⟩ | ⟨free, -⟩ | ⟨marker, listed, first, second, different, one, two⟩ |
      ⟨start, stop, one, two, order⟩
    · exact free _ endAt
    · exact free _ beginAt
    · rcases List.mem_cons.mp listed with rfl | last
      · exact different (((sectioned.begins _).mp one).trans ((sectioned.begins _).mp two).symm)
      · obtain rfl := List.mem_singleton.mp last
        exact different (((sectioned.ends _).mp one).trans ((sectioned.ends _).mp two).symm)
    · have startAt := (sectioned.begins _).mp one
      have stopAt := (sectioned.ends _).mp two
      omega
  cases located : locateSection text with
  | absent => exact absurd (locateSection_absent.mp located) notAbsent
  | malformed => rfl
  | found start stop =>
      obtain ⟨before, body, after, sectioned⟩ := locateSection_found located
      exact absurd sectioned (notFound before body after)

end Location

section Plans

variable {generated content : JsString} {authorization : ManagedFileAuthorization}

theorem Sectioned.slice {before body after text : JsString}
    (sectioned : Sectioned before body after text) :
    slice text before.length (before.length + (markedBlock body).length) = markedBlock body := by
  rw [sectioned.whole, Initialization.slice, ← List.append_assoc,
    List.take_append_of_le_length (by rw [List.length_append]),
    List.take_of_length_le (by rw [List.length_append]), List.drop_left]

theorem planManagedFile_sectioned {before body after text front inner back : JsString}
    (current : Sectioned before body after text) (source : Sectioned front inner back generated) :
    planManagedFile (.file text) generated authorization =
      .write (before ++ (markedBlock inner ++ after)) := by
  rw [planManagedFile, source.locate]
  dsimp only
  rw [current.locate]
  dsimp only
  rw [source.slice]
  obtain rfl := current.whole
  rw [List.take_left, List.append_assoc, ← List.drop_drop, List.drop_left, List.drop_left]

theorem planManagedFile_source {existing : ManagedFileObservation}
    (planned : planManagedFile existing generated authorization = .write content) :
    ∃ front inner back, Sectioned front inner back generated := by
  rw [planManagedFile] at planned
  cases located : locateSection generated with
  | absent => simp [located] at planned
  | malformed => simp [located] at planned
  | found start stop => exact locateSection_found located

theorem planManagedFile_cases {existing : ManagedFileObservation} {front inner back : JsString}
    (source : Sectioned front inner back generated)
    (planned : planManagedFile existing generated authorization = .write content) :
    (content = generated ∧ (existing = .absent ∨
      ∃ text, existing = .file text ∧ Unmarked text ∧ authorization.force = true)) ∨
    (∃ text, existing = .file text ∧ Unmarked text ∧ content = appended text generated) ∨
    ∃ text before body after, existing = .file text ∧ Sectioned before body after text ∧
      content = before ++ (markedBlock inner ++ after) := by
  cases existing with
  | absent =>
      rw [planManagedFile, source.locate] at planned
      exact .inl ⟨(ManagedFilePlan.write.inj planned).symm, .inl rfl⟩
  | other =>
      rw [planManagedFile, source.locate] at planned
      cases planned
  | file text =>
      cases located : locateSection text with
      | malformed =>
          rw [planManagedFile, source.locate] at planned
          simp [located] at planned
      | found start stop =>
          obtain ⟨before, body, after, current⟩ := locateSection_found located
          rw [planManagedFile_sectioned current source] at planned
          exact .inr (.inr ⟨text, before, body, after, rfl, current,
            (ManagedFilePlan.write.inj planned).symm⟩)
      | absent =>
          have free := locateSection_absent.mp located
          rw [planManagedFile, source.locate] at planned
          simp only [located] at planned
          by_cases forced : authorization.force = true
          · rw [if_pos forced] at planned
            exact .inl ⟨(ManagedFilePlan.write.inj planned).symm, .inr ⟨text, rfl, free, forced⟩⟩
          · rw [if_neg forced] at planned
            by_cases merged : authorization.merge = true
            · rw [if_pos merged] at planned
              exact .inr (.inl ⟨text, rfl, free, (ManagedFilePlan.write.inj planned).symm⟩)
            · rw [if_neg merged] at planned
              cases planned

theorem appended_sectioned {text front inner back : JsString} (free : Unmarked text)
    (source : Sectioned front inner back generated) :
    ∃ before, Sectioned before inner back (appended text generated) ∧ text <+: before := by
  have separated : ∀ condition : Prop, [Decidable condition] →
      (if condition then js "\n" else js "\n\n") = js "\n" ∨
        (if condition then js "\n" else js "\n\n") = js "\n\n" := by
    intro condition _
    by_cases held : condition
    · exact .inl (if_pos held)
    · exact .inr (if_neg held)
  refine ⟨_, Sectioned.below free (separated _) source, ?_⟩
  rw [List.append_assoc]
  exact List.prefix_append text _

theorem planManagedFile_written {existing : ManagedFileObservation} {front inner back : JsString}
    (source : Sectioned front inner back generated)
    (planned : planManagedFile existing generated authorization = .write content) :
    ∃ before after, Sectioned before inner after content := by
  rcases planManagedFile_cases source planned with ⟨rfl, -⟩ | ⟨text, -, free, rfl⟩ |
    ⟨text, before, body, after, -, current, rfl⟩
  · exact ⟨front, back, source⟩
  · obtain ⟨before, written, -⟩ := appended_sectioned free source
    exact ⟨before, back, written⟩
  · exact ⟨before, after, current.splice source⟩

/-- Planning a managed file is idempotent, keeps what surrounds the section or the whole file
without one, leaves the generated section once, and refuses malformed markers. -/
theorem managed_sections_kept (existing : ManagedFileObservation) (generated : JsString) :
    (∀ authorization content, planManagedFile existing generated authorization = .write content →
      (∀ again, planManagedFile (.file content) generated again = .write content) ∧
      ∃ front inner back, Sectioned front inner back generated ∧
        (∃ before after, Sectioned before inner after content) ∧
        (∀ text before body after, existing = .file text → Sectioned before body after text →
          Sectioned before inner after content) ∧
        ∀ text, existing = .file text → Unmarked text → authorization.merge = true →
          authorization.force = false → text <+: content) ∧
    ∀ text, existing = .file text → Malformed text → ∀ authorization, ∃ reasonCode,
      planManagedFile existing generated authorization = .refused reasonCode := by
  constructor
  · intro authorization content planned
    obtain ⟨front, inner, back, source⟩ := planManagedFile_source planned
    obtain ⟨before, after, written⟩ := planManagedFile_written source planned
    refine ⟨?_, front, inner, back, source, ⟨before, after, written⟩, ?_, ?_⟩
    · intro again
      rw [planManagedFile_sectioned written source, ← written.whole]
    · rintro text before body after rfl current
      rw [planManagedFile_sectioned current source] at planned
      obtain rfl := ManagedFilePlan.write.inj planned
      exact current.splice source
    · rintro text rfl free merge force
      rw [planManagedFile, source.locate] at planned
      simp only [locateSection_absent.mpr free, force, merge, Bool.false_eq_true, if_false,
        if_true] at planned
      obtain rfl := ManagedFilePlan.write.inj planned
      rw [appended, List.append_assoc]
      exact List.prefix_append text _
  · rintro text rfl malformed authorization
    rw [planManagedFile]
    cases locateSection generated with
    | absent => exact ⟨_, rfl⟩
    | malformed => exact ⟨_, rfl⟩
    | found start stop =>
        dsimp only
        rw [locateSection_malformed malformed]
        exact ⟨_, rfl⟩

end Plans

end Kratos.Initialization
