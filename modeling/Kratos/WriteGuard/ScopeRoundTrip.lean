/- source: domain/write-guard/scope-document.ts
   digest: A rendered scope is parsed back, after any prefix that leaves nothing open. -/

import Kratos.WriteGuard.ScopeDocument

set_option autoImplicit false

namespace Kratos.WriteGuard

open Foundation.Text Foundation.Pieces
open Foundation.Lines (lineFeed terminated)
open Foundation.Utf8 (intercalate_feed)
open Patterns (literal)

def Layer.clear : Layer := ⟨false, none⟩

def visibleLines (layer : Layer) : List JsString → List JsString
  | [] => []
  | line :: lines =>
      match layer.hide line with
      | some layer => visibleLines layer lines
      | none => line :: visibleLines layer lines

def layerAfter (layer : Layer) : List JsString → Layer
  | [] => layer
  | line :: lines => layerAfter ((layer.hide line).getD layer) lines

/-- A prefix that ends in a newline, shows neither scope heading and leaves no code fence or
comment open. -/
structure QuietPrefix (before : JsString) : Prop where
  ends : before.getLast? = some lineFeed
  headless : ∀ line ∈ visibleLines .clear (splitBreaks before),
    scopeHeading line ≠ some (2, allowHeading) ∧ scopeHeading line ≠ some (2, denyHeading)
  closed : layerAfter .clear (splitBreaks before) = .clear

section Prefixes

private theorem layerAfter_blank (layer : Layer) : layerAfter layer [[]] = layer := by
  obtain ⟨comment, fence⟩ := layer
  cases fence with
  | some fence => rfl
  | none => cases comment <;> rfl

private theorem layerAfter_concat (layer : Layer) (lines : List JsString) :
    layerAfter layer (lines ++ [[]]) = layerAfter layer lines := by
  induction lines generalizing layer with
  | nil => exact layerAfter_blank layer
  | cons line lines ih => exact ih _

private theorem visibleLines_append (layer : Layer) (lines more : List JsString) :
    ∀ line ∈ visibleLines layer lines, line ∈ visibleLines layer (lines ++ more) := by
  induction lines generalizing layer with
  | nil =>
      intro line member
      cases member
  | cons first lines ih =>
      intro line member
      rw [List.cons_append, visibleLines] at *
      split
      · next next hidden =>
          rw [hidden] at member
          exact ih next line member
      · next shown =>
          rw [shown] at member
          rcases List.mem_cons.mp member with rfl | inside
          · exact List.mem_cons_self
          · exact List.mem_cons_of_mem _ (ih layer line inside)

theorem ScopeReader.read_shown {reader : ScopeReader} {line : JsString}
    (shown : reader.layer.hide line = none) : reader.read line = reader.readShown line := by
  rw [ScopeReader.read, shown]

theorem readScope_quiet {lines : List JsString} {layer : Layer}
    (headless : ∀ line ∈ visibleLines layer lines,
      scopeHeading line ≠ some (2, allowHeading) ∧ scopeHeading line ≠ some (2, denyHeading))
    (index : Nat) (rest : List JsString) :
    readScope index { ScopeReader.start with layer := layer } (lines ++ rest) =
      readScope (index + lines.length)
        { ScopeReader.start with layer := layerAfter layer lines } rest := by
  induction lines generalizing index layer with
  | nil => rfl
  | cons line lines ih =>
      rw [visibleLines] at headless
      rw [List.cons_append, readScope, List.length_cons, Nat.add_comm lines.length,
        ← Nat.add_assoc, layerAfter]
      cases hidden : layer.hide line with
      | some next =>
          rw [hidden] at headless
          have moved : ScopeReader.read { ScopeReader.start with layer := layer } line =
              some { ScopeReader.start with layer := next } := by
            rw [ScopeReader.read, hidden]
          rw [moved]
          exact ih headless (index + 1)
      | none =>
          rw [hidden] at headless
          obtain ⟨allow, deny⟩ := headless line List.mem_cons_self
          have moved : ScopeReader.read { ScopeReader.start with layer := layer } line =
              some { ScopeReader.start with layer := layer } := by
            rw [ScopeReader.read_shown hidden, ScopeReader.readShown]
            cases found : scopeHeading line with
            | none => rfl
            | some heading =>
                obtain ⟨depth, title⟩ := heading
                rw [found] at allow deny
                show ScopeReader.enter { ScopeReader.start with layer := layer } depth title = _
                unfold ScopeReader.enter
                by_cases second : depth = 2
                · subst second
                  rw [if_neg (by decide), if_neg, if_neg]
                  · rintro rfl
                    exact deny rfl
                  · rintro rfl
                    exact allow rfl
                · exact if_pos second
          rw [moved]
          exact ih (fun other member => headless other (List.mem_cons_of_mem _ member)) (index + 1)

end Prefixes

section Bullets

theorem scopeDeclaration_bullet {pattern : JsString} (accepted : isPathGlob pattern = true) :
    scopeDeclaration (bullet pattern) = some pattern := by
  obtain ⟨filled, plain⟩ := isPathGlob_plain accepted
  have visible : ∀ u ∈ pattern, (!(u == unit '`')) = true := by
    intro u member
    rw [beq_eq_false_iff_ne.mpr (plain u member).1]
    rfl
  have opening : literal (js "- `") (bullet pattern) = some (pattern ++ js "`") := by
    have begins : startsWith (bullet pattern) (js "- `") = true := by
      rw [bullet, List.append_assoc]
      exact startsWith_append _ _
    rw [literal, if_pos begins, bullet, List.append_assoc, List.drop_left]
  have run : (pattern ++ js "`").takeWhile (fun u => !(u == unit '`')) = pattern := by
    rw [List.takeWhile_append_of_pos visible]
    exact List.append_nil _
  have rest : (pattern ++ js "`").dropWhile (fun u => !(u == unit '`')) = js "`" := by
    rw [List.dropWhile_append_of_pos visible]
    rfl
  have closing : literal (js "`") (js "`") = some [] := by decide
  unfold scopeDeclaration
  simp only [opening, bind, Option.bind_some, run, rest, closing]
  exact if_pos ⟨filled, rfl⟩

def ScopeReader.within (allow deny : List JsString) (opened : ScopeSection) (seenDeny : Bool) :
    ScopeReader :=
  ⟨allow, deny, some opened, some 2, true, seenDeny, .clear⟩

private theorem read_blank (allow deny : List JsString) (opened : ScopeSection) (seenDeny : Bool) :
    (ScopeReader.within allow deny opened seenDeny).read [] =
      some (.within allow deny opened seenDeny) := rfl

private theorem read_bullet {reader : ScopeReader} {opened : ScopeSection} {pattern : JsString}
    (accepted : isPathGlob pattern = true) (clear : reader.layer = .clear)
    (within : reader.section_ = some opened) :
    reader.read (bullet pattern) = some (reader.add opened pattern) := by
  have shown : reader.layer.hide (bullet pattern) = none := by
    rw [clear]
    rfl
  have text : scopeHeading (bullet pattern) = none := rfl
  have filled : ¬ ((bullet pattern).all isWhiteSpace = true) := by
    intro blank
    have dash : isWhiteSpace (unit '-') = true :=
      List.all_eq_true.mp blank (unit '-') List.mem_cons_self
    exact absurd dash (by decide)
  rw [ScopeReader.read_shown shown, ScopeReader.readShown, text, within]
  simp only
  rw [if_neg filled, scopeDeclaration_bullet accepted]
  exact if_pos accepted

private theorem readScope_bullets {patterns : List JsString} {reader : ScopeReader}
    {opened : ScopeSection} (accepted : ∀ pattern ∈ patterns, isPathGlob pattern = true)
    (clear : reader.layer = .clear) (within : reader.section_ = some opened) (index : Nat)
    (rest : List JsString) :
    readScope index reader (patterns.map bullet ++ rest) =
      readScope (index + patterns.length) (patterns.foldl (·.add opened) reader) rest := by
  induction patterns generalizing reader index with
  | nil => rfl
  | cons pattern patterns ih =>
      have later := fun other member => accepted other (List.mem_cons_of_mem pattern member)
      rw [List.map_cons, List.cons_append, readScope,
        read_bullet (accepted pattern List.mem_cons_self) clear within]
      simp only
      rw [ih later (by cases opened <;> exact clear) (by cases opened <;> exact within),
        List.length_cons, Nat.add_comm patterns.length, Nat.add_assoc]
      rfl

private theorem foldl_add_allow (patterns allow deny : List JsString) (seenDeny : Bool) :
    patterns.foldl (·.add .allow) (ScopeReader.within allow deny .allow seenDeny) =
      .within (allow ++ patterns) deny .allow seenDeny := by
  induction patterns generalizing allow with
  | nil => rw [List.append_nil, List.foldl_nil]
  | cons pattern patterns ih =>
      rw [List.foldl_cons, ← List.singleton_append, ← List.append_assoc]
      exact ih _

private theorem foldl_add_deny (patterns allow deny : List JsString) (seenDeny : Bool) :
    patterns.foldl (·.add .deny) (ScopeReader.within allow deny .deny seenDeny) =
      .within allow (deny ++ patterns) .deny seenDeny := by
  induction patterns generalizing deny with
  | nil => rw [List.append_nil, List.foldl_nil]
  | cons pattern patterns ih =>
      rw [List.foldl_cons, ← List.singleton_append, ← List.append_assoc]
      exact ih _

private theorem read_allowHeading :
    ScopeReader.start.read (js "## File allowlist") = some (.within [] [] .allow false) := by
  decide +kernel

private theorem read_denyHeading (allow : List JsString) :
    (ScopeReader.within allow [] .allow false).read (js "## File denylist") =
      some (.within allow [] .deny true) := by
  have shown : (ScopeReader.within allow [] .allow false).layer.hide (js "## File denylist") =
      none := by
    show Layer.hide .clear _ = _
    decide +kernel
  have found : scopeHeading (js "## File denylist") = some (2, denyHeading) := by decide +kernel
  have other : denyHeading ≠ allowHeading := by decide +kernel
  rw [ScopeReader.read_shown shown, ScopeReader.readShown, found]
  simp only
  rw [ScopeReader.enter, if_neg (by decide), if_neg other, if_pos rfl]
  rfl

def scopeLines (scope : FeatureScope) : List JsString :=
  [js "## File allowlist", []] ++ scope.allow.map bullet ++
    [[], js "## File denylist", []] ++ scope.deny.map bullet

theorem readScope_lines {scope : FeatureScope}
    (accepted : ∀ pattern ∈ scope.allow ++ scope.deny, isPathGlob pattern = true) (index : Nat) :
    readScope index .start (scopeLines scope ++ [[]]) = .valid scope := by
  have shape : scopeLines scope ++ [[]] =
      js "## File allowlist" :: [] :: (scope.allow.map bullet ++
        ([] :: js "## File denylist" :: [] :: (scope.deny.map bullet ++ [[]]))) := by
    simp only [scopeLines, List.append_assoc, List.cons_append, List.nil_append]
  have allowed := fun pattern member => accepted pattern (List.mem_append_left _ member)
  have denied := fun pattern member => accepted pattern (List.mem_append_right _ member)
  rw [shape, readScope, read_allowHeading]
  simp only
  rw [readScope, read_blank]
  simp only
  rw [readScope_bullets allowed rfl rfl, foldl_add_allow, readScope, read_blank]
  simp only
  rw [readScope, List.nil_append, read_denyHeading]
  simp only
  rw [readScope, read_blank]
  simp only
  rw [readScope_bullets denied rfl rfl, foldl_add_deny, readScope, read_blank]
  rfl

end Bullets

section RoundTrip

private theorem bullet_plain {pattern : JsString} (accepted : isPathGlob pattern = true) :
    lineFeed ∉ bullet pattern ∧ (bullet pattern).getLast? ≠ some carriageReturn := by
  obtain ⟨-, plain⟩ := isPathGlob_plain accepted
  constructor
  · intro member
    simp only [bullet, List.mem_append] at member
    rcases member with (inside | inside) | inside
    · exact absurd inside (by decide)
    · exact absurd (plain lineFeed inside).2 (by decide)
    · exact absurd inside (by decide)
  · have last : (bullet pattern).getLast? = some (unit '`') := List.getLast?_concat
    rw [last]
    decide

theorem renderSummaryScope_eq {scope : FeatureScope}
    (accepted : ∀ pattern ∈ scope.allow ++ scope.deny, isPathGlob pattern = true) :
    renderSummaryScope scope = .ok (terminated (scopeLines scope)) := by
  rw [renderSummaryScope, if_pos (List.all_eq_true.mpr accepted)]
  exact congrArg Except.ok (intercalate_feed (List.cons_ne_nil _ _))

private theorem splitBreaks_scope {scope : FeatureScope}
    (accepted : ∀ pattern ∈ scope.allow ++ scope.deny, isPathGlob pattern = true) :
    splitBreaks (terminated (scopeLines scope)) = scopeLines scope ++ [[]] := by
  refine splitBreaks_terminated ?_
  intro line member
  simp only [scopeLines, List.mem_append, List.mem_map] at member
  rcases member with ((fixed | ⟨pattern, inside, rfl⟩) | fixed) | ⟨pattern, inside, rfl⟩
  · revert line
    decide
  · exact bullet_plain (accepted pattern (List.mem_append_left _ inside))
  · revert line
    decide
  · exact bullet_plain (accepted pattern (List.mem_append_right _ inside))

/-- Every pattern a reader holds passed the glob validator. -/
def ScopeReader.Checked (reader : ScopeReader) : Prop :=
  ∀ pattern ∈ reader.allow ++ reader.deny, isPathGlob pattern = true

private theorem leave_lists (reader : ScopeReader) (depth : Nat) :
    (reader.leave depth).allow = reader.allow ∧ (reader.leave depth).deny = reader.deny := by
  unfold ScopeReader.leave
  split <;> exact ⟨rfl, rfl⟩

private theorem enter_lists {reader next : ScopeReader} {depth : Nat} {title : JsString}
    (moved : reader.enter depth title = some next) :
    next.allow = reader.allow ∧ next.deny = reader.deny := by
  unfold ScopeReader.enter at moved
  split at moved
  · rw [← Option.some.inj moved]
    exact ⟨rfl, rfl⟩
  split at moved
  · split at moved
    · cases moved
    · rw [← Option.some.inj moved]
      exact ⟨rfl, rfl⟩
  split at moved
  · split at moved
    · cases moved
    · rw [← Option.some.inj moved]
      exact ⟨rfl, rfl⟩
  · rw [← Option.some.inj moved]
    exact ⟨rfl, rfl⟩

private theorem ScopeReader.Checked.add {reader : ScopeReader} (checked : reader.Checked)
    {pattern : JsString} (accepted : isPathGlob pattern = true) (opened : ScopeSection) :
    (reader.add opened pattern).Checked := by
  intro other member
  cases opened with
  | allow =>
      simp only [ScopeReader.add, List.mem_append, List.mem_singleton] at member
      rcases member with (inside | rfl) | inside
      · exact checked other (List.mem_append_left _ inside)
      · exact accepted
      · exact checked other (List.mem_append_right _ inside)
  | deny =>
      simp only [ScopeReader.add, List.mem_append, List.mem_singleton] at member
      rcases member with inside | inside | rfl
      · exact checked other (List.mem_append_left _ inside)
      · exact checked other (List.mem_append_right _ inside)
      · exact accepted

theorem ScopeReader.Checked.read {reader next : ScopeReader} {line : JsString}
    (checked : reader.Checked) (moved : reader.read line = some next) : next.Checked := by
  unfold ScopeReader.read at moved
  split at moved
  · rw [← Option.some.inj moved]
    exact checked
  unfold ScopeReader.readShown at moved
  split at moved
  · next depth _ _ =>
      obtain ⟨allow, deny⟩ := enter_lists moved
      unfold ScopeReader.Checked
      rw [allow, deny, (leave_lists reader depth).1, (leave_lists reader depth).2]
      exact checked
  split at moved
  · rw [← Option.some.inj moved]
    exact checked
  split at moved
  · rw [← Option.some.inj moved]
    exact checked
  split at moved
  · split at moved
    · next accepted =>
        rw [← Option.some.inj moved]
        exact checked.add accepted _
    · cases moved
  · cases moved

private theorem readScope_checked {lines : List JsString} {reader : ScopeReader} {index : Nat}
    {scope : FeatureScope} (checked : reader.Checked)
    (parsed : readScope index reader lines = .valid scope) :
    ∀ pattern ∈ scope.allow ++ scope.deny, isPathGlob pattern = true := by
  induction lines generalizing reader index with
  | nil =>
      rw [readScope, ScopeReader.finish] at parsed
      split at parsed
      · cases parsed
      · injection parsed with parsed
        subst parsed
        exact checked
  | cons line lines ih =>
      rw [readScope] at parsed
      split at parsed
      · next next moved => exact ih (checked.read moved) parsed
      · cases parsed

theorem parseSummaryScope_checked {content : JsString} {scope : FeatureScope}
    (parsed : parseSummaryScope content = .valid scope) :
    ∀ pattern ∈ scope.allow ++ scope.deny, isPathGlob pattern = true :=
  readScope_checked (fun _ member => absurd member List.not_mem_nil) parsed

/-- What a rendering of the scope is parsed back to, alone and at the end of a document. -/
structure ReadsBack (scope : FeatureScope) (text : JsString) : Prop where
  rendered : renderSummaryScope scope = .ok text
  parsed : parseSummaryScope text = .valid scope
  appended : ∀ before, QuietPrefix before → parseSummaryScope (before ++ text) = .valid scope

theorem readsBack {scope : FeatureScope}
    (accepted : ∀ pattern ∈ scope.allow ++ scope.deny, isPathGlob pattern = true) :
    ReadsBack scope (terminated (scopeLines scope)) where
  rendered := renderSummaryScope_eq accepted
  parsed := by
    rw [parseSummaryScope, splitBreaks_scope accepted]
    exact readScope_lines accepted 0
  appended := by
    intro before quiet
    obtain ⟨lines, alone, extended⟩ := splitBreaks_append quiet.ends
    have headless := quiet.headless
    have closed := quiet.closed
    rw [alone, layerAfter_concat] at closed
    rw [alone] at headless
    have read := readScope_quiet
      (fun line member => headless line (visibleLines_append .clear lines [[]] line member)) 0
      (scopeLines scope ++ [[]])
    rw [closed] at read
    rw [parseSummaryScope, extended, splitBreaks_scope accepted]
    exact read.trans (readScope_lines accepted _)

/-- A valid scope is rendered, and its rendering is parsed back to it, also after a quiet prefix; a
scope that any document is parsed to is rendered and parsed back in the same way. -/
theorem summary_scope_round_trip :
    (∀ scope : FeatureScope, (∀ pattern ∈ scope.allow ++ scope.deny, isPathGlob pattern = true) →
      ∃ text, ReadsBack scope text) ∧
    (∀ (content : JsString) (scope : FeatureScope), parseSummaryScope content = .valid scope →
      ∃ text, ReadsBack scope text) := by
  constructor
  · intro scope accepted
    exact ⟨_, readsBack accepted⟩
  · intro content scope parsed
    exact ⟨_, readsBack (parseSummaryScope_checked parsed)⟩

/-- Blanks, hashes and comment marks in the patterns are read back. -/
theorem marked_scope_reads_back :
    ∃ text, ReadsBack ⟨[js "src/**", js "docs/# <!-- a.md "], [js "!**/[!a-c]?.env"]⟩ text :=
  summary_scope_round_trip.1 _ (by decide +kernel)

end RoundTrip

end Kratos.WriteGuard
