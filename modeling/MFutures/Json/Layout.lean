import MFutures.Json.RoundTrip
import MFutures.Json.StyledWriter

namespace MFutures.Json

/-- Every setting but the dropping of nulls, which leaves holes, and an indentation
that is not made of spaces. -/
structure BuiltStyledStreamWriter.Neat (w : BuiltStyledStreamWriter) : Prop where
  indentation : Spaces w.indentation
  colon : ∃ before after, Spaces before ∧ Spaces after ∧ w.colonSymbol = before ++ ':' :: after
  null : w.nullSymbol = "null".toList

/-- Without an indentation there are no spaces at all. -/
def BuiltStyledStreamWriter.Plain (w : BuiltStyledStreamWriter) : Prop := w.indentation = [] ∧ w.colonSymbol = [':']

section layout
variable {w : BuiltStyledStreamWriter} {v : Value} {text : List Char}

/-- Spaces that a layout puts. -/
def Gap (w : BuiltStyledStreamWriter) (spaces : List Char) : Prop := Spaces spaces ∧ (w.Plain → spaces = [])

theorem Gap.nil : Gap w [] := ⟨Spaces.nil, fun _ => rfl⟩

/-- A text of a value, in some layout. -/
structure Written (w : BuiltStyledStreamWriter) (v : Value) (text : List Char) : Prop where
  denotes : v.All Fits → Denotes (height v) (normal v) text
  plain : w.Plain → text = writeValue v

theorem Written.spaced {before after : List Char} (written : Written w v text) (gap : Gap w before) (gap' : Gap w after) :
    Written w v (before ++ (text ++ after)) where
  denotes fits := .spaced gap.1 gap'.1 (written.denotes fits)
  plain plain := by rw [gap.2 plain, gap'.2 plain, List.nil_append, List.append_nil, written.plain plain]

theorem Written.after {after : List Char} (written : Written w v text) (gap : Gap w after) : Written w v (text ++ after) := by
  have spaced := written.spaced Gap.nil gap
  rwa [List.nil_append] at spaced

/-- A text of a member, in some layout. -/
structure WrittenMember (w : BuiltStyledStreamWriter) (m : String × Value) (text : List Char) : Prop where
  denotes : m.2.All Fits → ∃ member : Member, member.line = text ∧ member.depth = height m.2 ∧
    member.value = normal m.2 ∧ member.name = recode m.1.toList ∧ Denotes member.depth member.value member.text
  plain : w.Plain → text = Json.writeMember (m.1, writeValue m.2)

theorem WrittenMember.after {m : String × Value} {after : List Char} (written : WrittenMember w m text) (gap : Gap w after) :
    WrittenMember w m (text ++ after) where
  denotes fits := by
    obtain ⟨member, line, depth, value, name, denotes⟩ := written.denotes fits
    refine ⟨{ member with text := member.text ++ after }, ?_, depth, value, name, ?_⟩
    · rw [← line]
      simp [Member.line]
    · exact .spaced Spaces.nil gap.1 denotes
  plain plain := by rw [gap.2 plain, List.append_nil, written.plain plain]

theorem writtenMember_of {m : String × Value} {before colonBefore colonAfter : List Char} (gap : Gap w before)
    (gap' : Gap w colonBefore) (gap'' : Gap w colonAfter) (written : Written w m.2 text) :
    WrittenMember w m (before ++ valueToQuotedStringN m.1.toList ++ (colonBefore ++ ':' :: (colonAfter ++ text))) where
  denotes fits := by
    refine ⟨⟨⟨height m.2, normal m.2, colonAfter ++ text⟩, before, recode m.1.toList, escape m.1.toList, colonBefore,
      gap.1, gap'.1, quoted_escape m.1.toList⟩, ?_, rfl, rfl, rfl, ?_⟩
    · simp [Member.line, valueToQuotedStringN_eq]
    · have spaced := Denotes.spaced gap''.1 Spaces.nil (written.denotes fits)
      rwa [List.append_nil] at spaced
  plain plain := by
    rw [gap.2 plain, gap'.2 plain, gap''.2 plain, written.plain plain]
    rfl

theorem separated_after {α : Type} {P : α → List Char → Prop} {after : List Char}
    (closed : ∀ {a text}, P a text → P a (text ++ after)) {items : List α} {texts : List (List Char)}
    (each : List.Forall₂ P items texts) (nonempty : items ≠ []) :
    ∃ texts', List.Forall₂ P items texts' ∧ separated texts' = separated texts ++ after := by
  induction each with
  | nil => exact absurd rfl nonempty
  | @cons a text items texts first rest ih =>
    cases rest with
    | nil => exact ⟨[text ++ after], .cons (closed first) .nil, rfl⟩
    | @cons a' text' items texts second rest =>
      obtain ⟨texts', each, same⟩ := ih (List.cons_ne_nil _ _)
      cases each with
      | @cons _ text'' _ texts' second rest =>
        refine ⟨text :: text'' :: texts', .cons first (.cons second rest), ?_⟩
        rw [separated_cons_cons, same]
        simp

theorem array_written {elements : List Value} {texts : List (List Char)} (each : List.Forall₂ (Written w) elements texts)
    (nonempty : elements ≠ []) : Written w (.arrayValue elements) ('[' :: (separated texts ++ [']'])) where
  denotes fits := by
    have inside : ∀ v ∈ elements, v.All Fits := by
      cases fits with
      | arrayValue _ inside => exact inside
    obtain ⟨items, itemTexts, depths, values, denote⟩ : ∃ items : List Item, items.map Item.text = texts ∧
        items.map Item.depth = elements.map height ∧ items.map Item.value = elements.map normal ∧
        ∀ item ∈ items, Denotes item.depth item.value item.text := by
      clear nonempty fits
      induction each with
      | nil => exact ⟨[], rfl, rfl, rfl, List.forall_mem_nil _⟩
      | @cons v text elements texts first rest ih =>
        obtain ⟨fits, inside⟩ := List.forall_mem_cons.mp inside
        obtain ⟨items, texts, depths, values, denote⟩ := ih inside
        refine ⟨⟨height v, normal v, text⟩ :: items, ?_, ?_, ?_, List.forall_mem_cons.mpr ⟨first.denotes fits, denote⟩⟩
        · rw [List.map_cons, texts]
        · rw [List.map_cons, List.map_cons, depths]
        · rw [List.map_cons, List.map_cons, values]
    have some : items ≠ [] := by
      rintro rfl
      exact nonempty (List.map_eq_nil_iff.mp values.symm)
    have array := Denotes.array some denote
    rw [itemTexts, depths, values] at array
    rw [height, heightElements_eq, normal, normalElements_eq]
    exact array
  plain plain := by
    have same : texts = elements.map writeValue := by
      clear nonempty
      induction each with
      | nil => rfl
      | cons first _ ih => rw [first.plain plain, ih, List.map_cons]
    rw [same, Json.writeValue, writeElements_eq]
    rfl

theorem object_written {members : List (String × Value)} {texts : List (List Char)}
    (each : List.Forall₂ (WrittenMember w) (sortMembers members) texts) (nonempty : sortMembers members ≠ []) :
    Written w (.objectValue members) ('\x7b' :: (separated texts ++ ['\x7d'])) where
  denotes fits := by
    have inside : ∀ m ∈ sortMembers members, m.2.All Fits := by
      cases fits with
      | objectValue _ inside => exact fun m mem => inside m (mem_sortMembers mem)
    rw [height, heightMembers_eq, sortMembers_map, normal, normalMembers_eq, sortMembers_map]
    generalize sortMembers members = sorted at each nonempty inside
    obtain ⟨ms, lines, depths, values, denote⟩ : ∃ ms : List Member, ms.map Member.line = texts ∧
        ms.map (fun m => m.depth) = sorted.map (fun m => height m.2) ∧
        ms.map (fun m => (String.ofList m.name, m.value)) = sorted.map (fun m => (recodeString m.1, normal m.2)) ∧
        ∀ m ∈ ms, Denotes m.depth m.value m.text := by
      clear nonempty fits
      induction each with
      | nil => exact ⟨[], rfl, rfl, rfl, List.forall_mem_nil _⟩
      | @cons m text sorted texts first rest ih =>
        obtain ⟨fits, inside⟩ := List.forall_mem_cons.mp inside
        obtain ⟨ms, lines, depths, values, denote⟩ := ih inside
        obtain ⟨member, line, depth, value, name, denotes⟩ := first.denotes fits
        refine ⟨member :: ms, ?_, ?_, ?_, List.forall_mem_cons.mpr ⟨denotes, denote⟩⟩
        · rw [List.map_cons, line, lines]
        · rw [List.map_cons, List.map_cons, depth, depths]
        · rw [List.map_cons, List.map_cons, value, name, values]
          rfl
    have some : ms ≠ [] := by
      rintro rfl
      exact nonempty (List.map_eq_nil_iff.mp values.symm)
    have object := Denotes.object some denote
    rw [lines, depths, values] at object
    rw [List.map_map, List.map_map]
    exact object
  plain plain := by
    have same : texts = (sortMembers members).map fun m => Json.writeMember (m.1, writeValue m.2) := by
      clear nonempty
      generalize sortMembers members = sorted at each ⊢
      induction each with
      | nil => rfl
      | cons first _ ih => rw [first.plain plain, ih, List.map_cons]
    rw [same, Json.writeValue, writeMembers_eq, sortMembers_map, List.map_map]
    rfl

end layout

namespace BuiltStyledStreamWriter

section states
variable {w : BuiltStyledStreamWriter} {s : Writing} {v : Value}

/-- The writer while it writes to the stream. Only `isMultilineArray` keeps texts,
and a writer of comments does not call it. -/
structure Ready (w : BuiltStyledStreamWriter) (indentString : List Char) (s : Writing) : Prop where
  direct : s.addChildValues = false
  indentation : s.indentString = indentString
  children : w.cs = .all → s.childValues = []

variable {indentString : List Char}

theorem Ready.put (ready : Ready w indentString s) (text : List Char) : Ready w indentString (s.put text) :=
  ⟨ready.1, ready.2, ready.3⟩

theorem Ready.indented (ready : Ready w indentString s) (indented : Bool) : Ready w indentString { s with indented } :=
  ⟨ready.1, ready.2, ready.3⟩

/-- What `writeIndent` puts is a gap, and nothing else changes. -/
theorem writeIndent_gap (spaces : Spaces s.indentString) :
    ∃ gap, Gap w gap ∧ (if s.indented then s else w.writeIndent s) = s.put gap := by
  have nothing : s = s.put [] := by rw [Writing.put, List.append_nil]
  unfold writeIndent
  split
  · exact ⟨[], Gap.nil, nothing⟩
  · split
    · exact ⟨[], Gap.nil, nothing⟩
    · rename_i indents
      refine ⟨'\n' :: s.indentString, ⟨List.forall_mem_cons.mpr ⟨by decide, spaces⟩, fun plain => ?_⟩, rfl⟩
      rw [plain.1] at indents
      exact absurd rfl indents

theorem writeWithIndent_gap (spaces : Spaces s.indentString) (value : List Char) :
    ∃ gap, Gap w gap ∧ w.writeWithIndent value s = { s.put (gap ++ value) with indented := false } := by
  obtain ⟨gap, gapped, same⟩ := writeIndent_gap (w := w) spaces
  refine ⟨gap, gapped, ?_⟩
  rw [writeWithIndent, same]
  simp [Writing.put]

/-- What a child does: it puts a text of its value on the stream, or among the
texts that are kept, if it has no parts. -/
structure Writes (w : BuiltStyledStreamWriter) (v : Value) (child : Writing → Writing) : Prop where
  direct : ∀ indentString s, Spaces indentString → Ready w indentString s →
    ∃ text, Written w v text ∧ (child s).sout = s.sout ++ text ∧ Ready w indentString (child s)
  kept : hasParts v = false → ∃ text, Written w v text ∧
    ∀ s, s.addChildValues = true → child s = { s with childValues := s.childValues ++ [text] }

theorem writes_pushValue {text : List Char} (written : Written w v text) : Writes w v (pushValue text) where
  direct indentString s _ ready := by
    refine ⟨text, written, ?_, ?_⟩
    · rw [pushValue, ready.direct]
      rfl
    · rw [pushValue, ready.direct]
      exact ready.put text
  kept _ := ⟨text, written, fun s keeps => by rw [pushValue, keeps]; rfl⟩

/-- The loop rule: each step puts a text of its item, and the loop puts them all
with commas between them. -/
theorem inTurn_run {α : Type} {P : α → List Char → Prop} {I : Writing → Prop} (put : ∀ s, I s → I (s.put [',']))
    {items : List α} {steps : List (Writing → Writing)}
    (each : List.Forall₂ (fun a step => ∀ s, I s → ∃ text, P a text ∧ (step s).sout = s.sout ++ text ∧ I (step s)) items steps)
    (s : Writing) (holds : I s) :
    ∃ texts, List.Forall₂ P items texts ∧ (inTurn steps s).sout = s.sout ++ separated texts ∧ I (inTurn steps s) := by
  induction each generalizing s with
  | nil => exact ⟨[], .nil, (List.append_nil s.sout).symm, holds⟩
  | @cons a step items steps first rest ih =>
    obtain ⟨text, written, wrote, after⟩ := first s holds
    cases rest with
    | nil => exact ⟨[text], .cons written .nil, wrote, after⟩
    | @cons a' step' items steps second rest =>
      obtain ⟨texts, each, wrote', after'⟩ := ih _ (put _ after)
      refine ⟨text :: texts, .cons written each, ?_, after'⟩
      cases each with
      | @cons _ text' _ texts _ _ =>
        rw [separated_cons_cons, inTurn_cons_cons, wrote', Writing.put, wrote]
        simp

variable {elements : List Value} {children : List (Writing → Writing)}

theorem measureLine_kept (each : List.Forall₂ (Writes w) elements children) (flat : ∀ v ∈ elements, hasParts v = false)
    (keeps : s.addChildValues = true) (index lineLength : Nat) :
    ∃ texts, List.Forall₂ (Written w) elements texts ∧
      (measureLine children index lineLength s).2 = { s with childValues := s.childValues ++ texts } := by
  induction each generalizing s index lineLength with
  | nil => exact ⟨[], .nil, by rw [List.append_nil]; rfl⟩
  | @cons v child elements children first rest ih =>
    obtain ⟨flat, flats⟩ := List.forall_mem_cons.mp flat
    obtain ⟨text, written, same⟩ := first.kept flat
    rw [measureLine, same s keeps]
    obtain ⟨texts, each, same⟩ := @ih { s with childValues := s.childValues ++ [text] } flats keeps (index + 1) _
    exact ⟨text :: texts, .cons written each, same.trans (by simp)⟩

/-- Either the texts of all elements are kept, or none is, and the array takes more
than one line. -/
theorem isMultilineArray_kept (each : List.Forall₂ (Writes w) elements children) (direct : s.addChildValues = false) :
    ∃ texts, (isMultilineArray elements children s).2 = { s with childValues := texts } ∧
      ((isMultilineArray elements children s).1 = true ∧ texts = [] ∨ List.Forall₂ (Written w) elements texts) := by
  unfold isMultilineArray
  dsimp only
  split
  · exact ⟨[], rfl, Or.inl ⟨rfl, rfl⟩⟩
  · rename_i short
    have flat : ∀ v ∈ elements, hasParts v = false := by
      intro v mem
      have none : ¬elements.any hasParts := fun some => short (by rw [some, Bool.or_true])
      exact Bool.eq_false_iff.mpr fun has => none (List.any_eq_true.mpr ⟨v, mem, has⟩)
    obtain ⟨texts, each, same⟩ := @measureLine_kept w { s with childValues := [], addChildValues := true } _ _ each flat rfl 0
      ((4 + (elements.length - 1) * 2) % 2 ^ 32)
    refine ⟨texts, ?_, Or.inr each⟩
    dsimp only at same ⊢
    rw [same, direct, List.nil_append]

/-- An element of an array that takes more than one line puts a text of it, from a
new line on. -/
theorem writeElement_written {texts : List (List Char)} (spaces : Spaces indentString) {index : Nat} {child : Writing → Writing}
    (writes : Writes w v child) (kept : ∀ text, texts[index]? = some text → Written w v text)
    (inside : texts ≠ [] → (texts[index]?).isSome) (s : Writing)
    (ready : Ready w indentString s ∧ (texts ≠ [] → s.childValues = texts)) :
    ∃ text, Written w v text ∧ (w.writeElement (!texts.isEmpty) index child s).sout = s.sout ++ text ∧
      Ready w indentString (w.writeElement (!texts.isEmpty) index child s) ∧
      (texts ≠ [] → (w.writeElement (!texts.isEmpty) index child s).childValues = texts) := by
  obtain ⟨ready, same⟩ := ready
  have spaces' : Spaces s.indentString := ready.indentation ▸ spaces
  unfold writeElement
  cases texts with
  | nil =>
    obtain ⟨gap, gapped, put⟩ := writeIndent_gap (w := w) spaces'
    obtain ⟨text, written, wrote, ready'⟩ := writes.direct indentString { s.put gap with indented := true } spaces
      ((ready.put gap).indented true)
    refine ⟨gap ++ text, ?_, ?_, ?_, fun some => absurd rfl some⟩
    · have spaced := written.spaced gapped Gap.nil
      rwa [List.append_nil] at spaced
    · rw [put]
      exact wrote.trans (List.append_assoc _ _ _)
    · rw [put]
      exact ready'.indented false
  | cons first texts =>
    obtain ⟨text, at_⟩ := Option.isSome_iff_exists.mp (inside (List.cons_ne_nil _ _))
    obtain ⟨gap, gapped, put⟩ := writeWithIndent_gap (w := w) spaces' text
    have own := same (List.cons_ne_nil _ _)
    refine ⟨gap ++ text, ?_, ?_, ?_, fun _ => ?_⟩
    · have spaced := (kept text at_).spaced gapped Gap.nil
      rwa [List.append_nil] at spaced
    · simp only [own, at_]
      exact congrArg Writing.sout put
    · simp only [own, at_]
      exact put ▸ (ready.put _).indented false
    · simp only [own, at_]
      exact put ▸ own

theorem Ready.indent (ready : Ready w indentString s) : Ready w (indentString ++ w.indentation) (w.indent s) :=
  ⟨ready.direct, congrArg (· ++ w.indentation) ready.indentation, ready.children⟩

theorem Ready.unindent (ready : Ready w (indentString ++ w.indentation) s) : Ready w indentString (w.unindent s) := by
  refine ⟨ready.direct, ?_, ready.children⟩
  rw [BuiltStyledStreamWriter.unindent, ready.indentation, List.length_append, Nat.add_sub_cancel, List.take_left]

/-- What a loop puts between two brackets on lines of their own. -/
theorem bracketed {front back : Char} {loop : Writing → Writing} {Q : List (List Char) → Prop} (neat : w.Neat)
    (spaces : Spaces indentString) (ready : Ready w indentString s)
    (run : ∀ s', Spaces (indentString ++ w.indentation) → Ready w (indentString ++ w.indentation) s' →
      s'.childValues = s.childValues → ∃ texts, Q texts ∧ (loop s').sout = s'.sout ++ separated texts ∧
        Ready w (indentString ++ w.indentation) (loop s'))
    (closed : ∀ {texts gap}, Q texts → Gap w gap → ∃ texts', Q texts' ∧ separated texts' = separated texts ++ gap) :
    ∃ gap texts, Gap w gap ∧ Q texts ∧
      (w.writeWithIndent [back] (w.unindent (loop (w.indent (w.writeWithIndent [front] s))))).sout =
        s.sout ++ (gap ++ (front :: (separated texts ++ [back]))) ∧
      Ready w indentString (w.writeWithIndent [back] (w.unindent (loop (w.indent (w.writeWithIndent [front] s))))) := by
  have ahead : Spaces (indentString ++ w.indentation) := spaces.append neat.indentation
  obtain ⟨gap, gapped, put⟩ := writeWithIndent_gap (w := w) (ready.indentation.symm ▸ spaces) [front]
  have opened : (w.indent (w.writeWithIndent [front] s)).sout = s.sout ++ (gap ++ [front]) := by
    rw [put]
    rfl
  have kept : (w.indent (w.writeWithIndent [front] s)).childValues = s.childValues := by
    rw [put]
    rfl
  have ready₁ : Ready w (indentString ++ w.indentation) (w.indent (w.writeWithIndent [front] s)) := by
    rw [put]
    exact ((ready.put (gap ++ [front])).indented false).indent
  generalize w.indent (w.writeWithIndent [front] s) = s₁ at opened kept ready₁ ⊢
  obtain ⟨texts, holds, wrote, ready₂⟩ := run s₁ ahead ready₁ kept
  generalize loop s₁ = s₂ at wrote ready₂ ⊢
  have ready₃ := ready₂.unindent
  obtain ⟨gap', gapped', put'⟩ := writeWithIndent_gap (w := w) (ready₃.indentation.symm ▸ spaces) [back]
  obtain ⟨texts', holds', same⟩ := closed holds gapped'
  have ended : (w.writeWithIndent [back] (w.unindent s₂)).sout = s₂.sout ++ (gap' ++ [back]) := by
    rw [put']
    rfl
  refine ⟨gap, texts', gapped, holds', ?_, put' ▸ (ready₃.put _).indented false⟩
  rw [ended, wrote, opened, same]
  simp

/-- An array on lines of its own, when the texts of all elements are kept or none is. -/
theorem writeArrayLines_run (neat : w.Neat) (each : List.Forall₂ (Writes w) elements children) (nonempty : elements ≠ [])
    (spaces : Spaces indentString) (ready : Ready w indentString s)
    (kept : s.childValues = [] ∨ List.Forall₂ (Written w) elements s.childValues) :
    ∃ text, Written w (.arrayValue elements) text ∧ (w.writeArrayLines children s).sout = s.sout ++ text ∧
      Ready w indentString (w.writeArrayLines children s) := by
  have length := each.length_eq
  have run (s' : Writing) (ahead : Spaces (indentString ++ w.indentation))
      (ready' : Ready w (indentString ++ w.indentation) s') (same : s'.childValues = s.childValues) :
      ∃ texts, List.Forall₂ (Written w) elements texts ∧
        (inTurn (children.mapIdx (w.writeElement (!s'.childValues.isEmpty))) s').sout = s'.sout ++ separated texts ∧
        Ready w (indentString ++ w.indentation) (inTurn (children.mapIdx (w.writeElement (!s'.childValues.isEmpty))) s') := by
    rw [same]
    obtain ⟨texts, written, wrote, after⟩ := @inTurn_run Value (Written w)
      (fun t => Ready w (indentString ++ w.indentation) t ∧ (s.childValues ≠ [] → t.childValues = s.childValues))
      (fun t holds => ⟨holds.1.put _, holds.2⟩) elements (children.mapIdx (w.writeElement (!s.childValues.isEmpty)))
      (by
        refine List.forall₂_iff_get.mpr ⟨by rw [List.length_mapIdx, length], fun index bound bound' => ?_⟩
        have writes := (List.forall₂_iff_get.mp each).2 index bound (length ▸ bound)
        simp only [List.get_eq_getElem, List.getElem_mapIdx]
        refine writeElement_written ahead writes ?_ ?_
        · intro text at_
          rcases kept with none | kept
          · rw [none] at at_
            cases at_
          · obtain ⟨bound'', value⟩ := List.getElem?_eq_some_iff.mp at_
            exact value ▸ (List.forall₂_iff_get.mp kept).2 index bound bound''
        · intro some
          have kept := kept.resolve_left some
          rw [List.getElem?_eq_getElem (kept.length_eq ▸ bound)]
          rfl)
      s' ⟨ready', fun _ => same⟩
    exact ⟨texts, written, wrote, after.1⟩
  obtain ⟨gap, texts, gapped, written, wrote, after⟩ := @bracketed w s indentString '[' ']'
    (fun s => inTurn (children.mapIdx (w.writeElement (!s.childValues.isEmpty))) s) (List.Forall₂ (Written w) elements) neat
    spaces ready run (fun written gapped => separated_after (fun written => written.after gapped) written nonempty)
  have array := (array_written written nonempty).spaced gapped Gap.nil
  rw [List.append_nil] at array
  exact ⟨_, array, wrote, after⟩

theorem separated_padded (pad : List Char) {texts : List (List Char)} (nonempty : texts ≠ []) :
    separated (texts.map (pad ++ ·)) = pad ++ List.intercalate (',' :: pad) texts := by
  induction texts with
  | nil => exact absurd rfl nonempty
  | cons text texts ih =>
    cases texts with
    | nil => simp [List.intercalate, separated]
    | cons next texts =>
      have rest := ih (List.cons_ne_nil _ _)
      rw [List.map_cons] at rest
      rw [List.map_cons, List.map_cons, separated_cons_cons, rest]
      simp [List.intercalate]

/-- An array on a line with others. -/
theorem writeArrayLine_run (kept : List.Forall₂ (Written w) elements s.childValues) (nonempty : elements ≠ [])
    (ready : Ready w indentString s) :
    ∃ text, Written w (.arrayValue elements) text ∧ (w.writeArrayLine elements.length s).sout = s.sout ++ text ∧
      Ready w indentString (w.writeArrayLine elements.length s) := by
  have values : (List.range elements.length).map (fun index => s.childValues[index]?.getD []) = s.childValues := by
    refine List.ext_getElem (by rw [List.length_map, List.length_range, kept.length_eq]) fun index bound bound' => ?_
    rw [List.getElem_map, List.getElem_range, List.getElem?_eq_getElem bound', Option.getD_some]
  have gap : Gap w (if w.indentation.isEmpty then [] else [' ']) := by
    split
    · exact Gap.nil
    · rename_i indents
      refine ⟨List.forall_mem_singleton.mpr (by decide), fun plain => absurd ?_ indents⟩
      rw [plain.1]
      rfl
  unfold writeArrayLine
  dsimp only
  rw [values]
  generalize (if w.indentation.isEmpty then [] else [' ']) = pad at gap ⊢
  generalize s.childValues = texts at kept
  have padded : List.Forall₂ (Written w) elements (texts.map (pad ++ ·)) := by
    refine List.forall₂_map_right_iff.mpr (kept.imp fun v text written => ?_)
    have spaced := written.spaced gap Gap.nil
    rwa [List.append_nil] at spaced
  obtain ⟨texts', each, same⟩ := separated_after (fun written => written.after gap) padded nonempty
  have some : texts ≠ [] := fun none => nonempty (by
    rw [none] at kept
    cases kept
    rfl)
  refine ⟨_, array_written each nonempty, ?_, ready.put _⟩
  rw [same, separated_padded pad some]
  simp [Writing.put]

theorem array_writes (neat : w.Neat) (each : List.Forall₂ (Writes w) elements children) (nonempty : elements ≠ []) :
    Writes w (.arrayValue elements) (w.writeArrayValue elements children) where
  kept flat := absurd flat (by simp [hasParts, nonempty])
  direct indentString s spaces ready := by
    have none : elements.isEmpty = false := Bool.eq_false_iff.mpr fun empty => nonempty (List.isEmpty_iff.mp empty)
    unfold writeArrayValue
    rw [none]
    simp only [Bool.false_eq_true, if_false]
    by_cases all : w.cs = .all
    · simp only [all, if_true]
      exact writeArrayLines_run neat each nonempty spaces ready (Or.inl (ready.children all))
    · simp only [all, if_false]
      obtain ⟨texts, same, kept⟩ := isMultilineArray_kept each ready.direct
      rw [same]
      have ready' : Ready w indentString { s with childValues := texts } :=
        ⟨ready.direct, ready.indentation, fun is => absurd is all⟩
      split
      · exact writeArrayLines_run neat each nonempty spaces ready' (kept.imp_left And.right)
      · rename_i short
        exact writeArrayLine_run (kept.resolve_left fun long => short long.1) nonempty ready'

theorem writeMember_written {m : String × Value} {child : Writing → Writing} (neat : w.Neat) (spaces : Spaces indentString)
    (writes : Writes w m.2 child) (s : Writing) (ready : Ready w indentString s) :
    ∃ text, WrittenMember w m text ∧ (w.writeMember (m.1, child) s).sout = s.sout ++ text ∧
      Ready w indentString (w.writeMember (m.1, child) s) := by
  obtain ⟨gap, gapped, put⟩ := writeWithIndent_gap (w := w) (ready.indentation.symm ▸ spaces)
    (valueToQuotedStringN m.1.toList)
  obtain ⟨before, after, spacesBefore, spacesAfter, colon⟩ := neat.colon
  have gapBefore : Gap w before := by
    refine ⟨spacesBefore, fun plain => ?_⟩
    rw [plain.2] at colon
    cases before with
    | nil => rfl
    | cons c before => simp at colon
  have gapAfter : Gap w after := by
    refine ⟨spacesAfter, fun plain => ?_⟩
    rw [plain.2, gapBefore.2 plain] at colon
    exact (List.cons.inj colon).2.symm
  unfold writeMember
  dsimp only
  rw [put]
  obtain ⟨text, written, wrote, ready'⟩ := writes.direct indentString _ spaces
    (((ready.put (gap ++ valueToQuotedStringN m.1.toList)).indented false).put w.colonSymbol)
  refine ⟨_, writtenMember_of gapped gapBefore gapAfter written, ?_, ready'⟩
  rw [wrote, colon]
  simp [Writing.put]

theorem object_writes {members : List (String × Value)} {writers : List (String × (Writing → Writing))} (neat : w.Neat)
    (each : List.Forall₂ (fun m child => m.1 = child.1 ∧ Writes w m.2 child.2) (sortMembers members) writers)
    (nonempty : sortMembers members ≠ []) : Writes w (.objectValue members) (w.writeObjectValue writers) where
  kept flat := by
    cases members with
    | nil => exact absurd rfl nonempty
    | cons m members => cases flat
  direct indentString s spaces ready := by
    have none : writers.isEmpty = false := by
      refine Bool.eq_false_iff.mpr fun empty => nonempty ?_
      rw [List.isEmpty_iff.mp empty] at each
      exact List.eq_nil_of_length_eq_zero each.length_eq
    unfold writeObjectValue
    rw [none]
    simp only [Bool.false_eq_true, if_false]
    obtain ⟨gap, texts, gapped, written, wrote, after⟩ := @bracketed w s indentString '\x7b' '\x7d'
      (fun s => inTurn (writers.map w.writeMember) s) (List.Forall₂ (WrittenMember w) (sortMembers members)) neat
      spaces ready
      (fun s' ahead ready' _ => inTurn_run (fun _ holds => holds.put _)
        (List.forall₂_map_right_iff.mpr (each.imp fun m child writes s ready => by
          obtain ⟨same, writes⟩ := writes
          have written := writeMember_written neat ahead writes s ready
          rw [same] at written
          exact written)) s' ready')
      (fun written gapped => separated_after (fun written => written.after gapped) written nonempty)
    have object := (object_written written nonempty).spaced gapped Gap.nil
    rw [List.append_nil] at object
    exact ⟨_, object, wrote, after⟩

theorem writeElements_eq (elements : List Value) : w.writeElements elements = elements.map w.writeValue := by
  induction elements with
  | nil => rfl
  | cons v elements ih => rw [writeElements, ih, List.map_cons]

theorem writeMembers_eq (members : List (String × Value)) :
    w.writeMembers members = members.map fun m => (m.1, w.writeValue m.2) := by
  induction members with
  | nil => rfl
  | cons m members ih => rw [writeMembers, ih, List.map_cons]

/-- In every layout the writer puts a text of the value. -/
theorem writeValue_writes (neat : w.Neat) (v : Value) : Writes w v (w.writeValue v) := by
  have text {v : Value} {text : List Char} (denotes : Fits v → Denotes (height v) (normal v) text)
      (same : text = Json.writeValue v) : Writes w v (pushValue text) :=
    writes_pushValue ⟨fun fits => denotes fits.here, fun _ => same⟩
  have each : v.All fun _ => True := Value.all (fun _ => trivial) v
  induction each with
  | nullValue _ =>
    rw [writeValue, neat.null]
    exact text (fun _ => .null) rfl
  | intValue _ => exact text denotes_intToString rfl
  | uintValue _ => exact text denotes_uintToString rfl
  | realValue _ => exact text denotes_doubleToString rfl
  | stringValue _ => exact text (fun _ => denotes_quoted _) rfl
  | @booleanValue b _ =>
    cases b with
    | true => exact text (fun _ => .true) rfl
    | false => exact text (fun _ => .false) rfl
  | @arrayValue elements _ _ each =>
    rw [writeValue, writeElements_eq]
    cases elements with
    | nil => exact text (fun _ => .emptyArray Spaces.nil) rfl
    | cons v elements =>
      exact array_writes neat (List.forall₂_map_right_iff.mpr (List.forall₂_same.mpr each)) (List.cons_ne_nil _ _)
  | @objectValue members _ _ each =>
    rw [writeValue, writeMembers_eq, sortMembers_map]
    cases members with
    | nil => exact text (fun _ => .emptyObject Spaces.nil) rfl
    | cons m members =>
      refine object_writes neat (List.forall₂_map_right_iff.mpr (List.forall₂_same.mpr fun m mem => ?_)) ?_
      · exact ⟨rfl, each m (mem_sortMembers mem)⟩
      · exact insertMember_ne_nil _ _ _

theorem write_written (neat : w.Neat) (v : Value) : Written w v (w.write v) := by
  obtain ⟨text, written, wrote, -⟩ := (writeValue_writes neat v).direct [] { indented := true } Spaces.nil
    ⟨rfl, rfl, fun _ => rfl⟩
  rw [write, wrote]
  exact written

end states

end BuiltStyledStreamWriter

section builders
variable {b : StreamWriterBuilder} {w : BuiltStyledStreamWriter}

theorem newStreamWriter_neat (made : b.newStreamWriter = some w) (spaces : Spaces b.indentation)
    (keeps : b.dropNullPlaceholders = false) : w.Neat := by
  obtain ⟨cs, -, rfl⟩ := Option.map_eq_some_iff.mp made
  have space : Spaces [' '] := List.forall_mem_singleton.mpr (by decide)
  refine ⟨spaces, ?_, by simp [keeps]⟩
  dsimp only
  split
  · exact ⟨[], [' '], Spaces.nil, space, rfl⟩
  · split
    · exact ⟨[], [], Spaces.nil, Spaces.nil, rfl⟩
    · exact ⟨[' '], [' '], space, space, rfl⟩

/-- Without an indentation there are no spaces, whatever the writer remembers. -/
theorem writeString_plain (v : Value) : writeString plainBuilder v = some (writeValue v) := by
  have written (w : BuiltStyledStreamWriter) (made : plainBuilder.newStreamWriter = some w) :=
    BuiltStyledStreamWriter.write_written (newStreamWriter_neat made Spaces.nil rfl) v
  exact congrArg some ((written _ rfl).plain ⟨rfl, rfl⟩)

def linesValue : Value := .arrayValue [.nullValue, .stringValue "x"]

end builders

end MFutures.Json
