import ProtoPascal.Proofs.FieldNumbers
import ProtoPascal.Proofs.LegalNames
import ProtoPascal.Proofs.ReadableBodies

/-!
String literals. A literal is read from left to right: after the opening quote a doubled quote stands
for one quote, a single one ends the literal, and any other character stands for itself. Runs of quotes
and quotes at either end of a text stand next to those that delimit it, and are read all the same.

The class of a message quotes the names of its fields: in the constants that hold the names, and in the
messages of the exceptions with which fields refuse to become present without a value. Where a name is
quoted, the text of the unit reads as a literal that denotes the name, whatever characters it has, and
goes on behind the literal as it was generated.

* `readLiteral_eq_some`: reading accepts exactly what writing produces;
* `inner_class_shown`: a unit shows the classes of nested messages;
* `literals_denote_names`: the literals of a unit.
-/

namespace ProtoPascal

open Message
open Naming
open Pascal
open Schema (Field MessageType)

namespace Pascal

/-! ### Reading a literal -/

/-- Read a literal after its opening quote: what it denotes, and the characters that follow it. A doubled
quote stands for one quote, a single one ends the literal, and any other character stands for itself. -/
def readQuoted : List Char → Option (List Char × List Char)
  | [] => none
  | '\'' :: '\'' :: rest => (readQuoted rest).map fun read => ('\'' :: read.1, read.2)
  | '\'' :: rest => some ([], rest)
  | character :: rest => (readQuoted rest).map fun read => (character :: read.1, read.2)

/-- Read the string literal at the start of a text: what it denotes, and the text that follows it. -/
def readLiteral (source : String) : Option (String × String) :=
  match source.toList with
  | '\'' :: rest => (readQuoted rest).map fun read => (String.ofList read.1, String.ofList read.2)
  | _ => none

theorem escapeQuotes_cons {character : Char} (other : character ≠ '\'') (rest : List Char) :
    escapeQuotes (character :: rest) = character :: escapeQuotes rest := by
  rw [escapeQuotes]
  exact other

theorem readQuoted_cons {character : Char} (other : character ≠ '\'') (rest : List Char) :
    readQuoted (character :: rest) =
      (readQuoted rest).map fun read => (character :: read.1, read.2) := by
  rw [readQuoted]
  · rintro _ rfl _
    exact other rfl
  · exact other

theorem readQuoted_end {rest : List Char} (ends : rest.head? ≠ some '\'') :
    readQuoted ('\'' :: rest) = some ([], rest) := by
  cases rest with
  | nil => rfl
  | cons character rest =>
    rw [readQuoted]
    rintro _ same
    cases same
    exact ends rfl

/-- What is written between quotes is read again, up to the quote that ends it. -/
theorem readQuoted_escapeQuotes (text : List Char) {rest : List Char}
    (ends : rest.head? ≠ some '\'') :
    readQuoted (escapeQuotes text ++ '\'' :: rest) = some (text, rest) := by
  induction text with
  | nil => exact readQuoted_end ends
  | cons character text ih =>
    by_cases quote : character = '\''
    · subst quote
      rw [escapeQuotes, List.cons_append, List.cons_append, readQuoted, ih]
      rfl
    · rw [escapeQuotes_cons quote, List.cons_append, readQuoted_cons quote, ih]
      rfl

/-- What is read was written between quotes, and no quote follows the one that ends it. -/
theorem eq_of_readQuoted {source text rest : List Char} (found : readQuoted source = some (text, rest)) :
    source = escapeQuotes text ++ '\'' :: rest ∧ rest.head? ≠ some '\'' := by
  fun_induction readQuoted source generalizing text with
  | case1 => cases found
  | case2 source ih =>
    obtain ⟨⟨inner, left⟩, read, same⟩ := Option.map_eq_some_iff.mp found
    cases same
    obtain ⟨rfl, ends⟩ := ih read
    exact ⟨rfl, ends⟩
  | case3 source single =>
    cases found
    refine ⟨rfl, fun doubled => ?_⟩
    cases rest with
    | nil => cases doubled
    | cons first rest =>
      cases doubled
      exact single rest rfl
  | case4 character source _ other ih =>
    obtain ⟨⟨inner, left⟩, read, same⟩ := Option.map_eq_some_iff.mp found
    cases same
    obtain ⟨rfl, ends⟩ := ih read
    exact ⟨by rw [escapeQuotes_cons other, List.cons_append], ends⟩

theorem toList_stringLiteral_append (text rest : String) :
    (stringLiteral text ++ rest).toList = '\'' :: (escapeQuotes text.toList ++ '\'' :: rest.toList) := by
  simp [stringLiteral]

/-- **Reading accepts exactly what writing produces**: the literal of the text, before something that
does not start with a quote. -/
theorem readLiteral_eq_some {source text rest : String} :
    readLiteral source = some (text, rest) ↔
      source = stringLiteral text ++ rest ∧ rest.toList.head? ≠ some '\'' := by
  constructor
  · intro found
    unfold readLiteral at found
    split at found
    · next inside opened =>
      obtain ⟨⟨inner, left⟩, read, same⟩ := Option.map_eq_some_iff.mp found
      cases same
      obtain ⟨rfl, ends⟩ := eq_of_readQuoted read
      refine ⟨String.toList_inj.mp ?_, by rwa [String.toList_ofList]⟩
      rw [opened, toList_stringLiteral_append, String.toList_ofList, String.toList_ofList]
    · cases found
  · rintro ⟨rfl, ends⟩
    rw [readLiteral, toList_stringLiteral_append]
    simp only [readQuoted_escapeQuotes _ ends, Option.map_some, String.ofList_toList]

/-! ### Literals in a text -/

/-- At some place behind `lead`, a text reads as a literal that denotes a text, and goes on with `next`
after it. -/
def ShowsLiteral (text lead denoted next : String) : Prop :=
  ∃ before source after, text = before ++ lead ++ source ∧
    readLiteral source = some (denoted, next ++ after)

/-- The text of a line is part of the text of the layout. -/
theorem exists_append_of_mem_lines {lines : List Line} {line : Line} (inside : line ∈ lines) :
    ∃ before after, layoutText lines = before ++ line.text ++ after := by
  have indented : ∃ blanks, line.content = blanks ++ line.text := by
    unfold Line.content
    split
    · next empty => exact ⟨"", by rw [String.isEmpty_iff.mp empty]; rfl⟩
    · exact ⟨_, rfl⟩
  obtain ⟨blanks, content⟩ := indented
  obtain ⟨front, back, rfl⟩ := List.append_of_mem inside
  refine ⟨layoutText front ++ blanks, "\n" ++ layoutText back, ?_⟩
  rw [← List.singleton_append, layoutText_append, layoutText_append]
  have single : layoutText [line] = blanks ++ line.text ++ "\n" := by
    rw [← content, ← Line.render_eq, ← String.toList_inj, layoutText, String.toList_join]
    simp
  rw [single]
  simp only [String.append_assoc]

theorem showsLiteral_of_line {lines : List Line} {depth : Nat} {lead denoted next : String}
    (inside : ⟨depth, lead ++ stringLiteral denoted ++ next⟩ ∈ lines)
    (goesOn : next.toList.head?.any (· != '\'')) :
    ShowsLiteral (layoutText lines) lead denoted next := by
  obtain ⟨before, after, shown⟩ := exists_append_of_mem_lines inside
  refine ⟨before, stringLiteral denoted ++ (next ++ after), after, ?_, ?_⟩
  · rw [shown]
    simp only [String.append_assoc]
  · refine readLiteral_eq_some.mpr ⟨rfl, ?_⟩
    rw [String.toList_append, List.head?_append]
    obtain ⟨first, found, other⟩ := (Option.any_eq_true _ _).mp goesOn
    rw [found]
    simpa using other

/-- The lines of a member of a class are among those of the class. -/
theorem lines_subset_linesFrom {members : List Member} {member : Member} (inside : member ∈ members)
    (depth : Nat) (current : Section) :
    member.lines (depth + member.group.depth) ⊆ Member.linesFrom depth current members := by
  induction members generalizing current with
  | nil => cases inside
  | cons first rest ih =>
    rw [Member.linesFrom]
    rcases List.mem_cons.mp inside with rfl | later
    · exact List.Subset.trans (List.subset_append_right _ _) (List.subset_append_left _ _)
    · exact List.Subset.trans (ih later _) (List.subset_append_right _ _)

/-- The lines of the first branch of a conditional statement are among those of the statement. -/
theorem thenBranch_lines_subset (condition : String)
    (thenBranch elseBranch : List (Statement String String)) (opening : String) (depth : Nat) :
    Statement.linesAll (depth + 1) thenBranch ⊆
      (Statement.ifElse condition thenBranch elseBranch).lines opening depth := by
  rw [Statement.lines_eq opening depth rfl, Statement.laterLines]
  exact fun _ inside => List.mem_cons_of_mem _ (List.mem_cons_of_mem _ (List.mem_append_left _ inside))

theorem mem_typeSectionLines {depth : Nat} {declarations : List TypeDeclaration}
    {declaration : TypeDeclaration} (inside : declaration ∈ declarations) {line : Line}
    (found : line ∈ declaration.lines depth) : line ∈ typeSectionLines depth declarations := by
  fun_induction typeSectionLines depth declarations with
  | case1 => cases inside
  | case2 only =>
    cases List.mem_singleton.mp inside
    exact found
  | case3 first next rest ih =>
    rw [List.mem_append]
    rcases List.mem_cons.mp inside with rfl | later
    · exact .inl (List.mem_append_left _ found)
    · exact .inr (ih later)

theorem mem_lines_of_type {unit : PascalUnit String String} {declaration : TypeDeclaration}
    (inside : declaration ∈ unit.types) {line : Line} (found : line ∈ declaration.lines 1) :
    line ∈ unit.lines := by
  have filled : unit.types.isEmpty = false := by
    rw [List.isEmpty_eq_false_iff_exists_mem]
    exact ⟨declaration, inside⟩
  have placed := mem_typeSectionLines inside found
  simp [PascalUnit.lines, filled, placed]

theorem mem_lines_of_implementation {unit : PascalUnit String String}
    {implementation : Implementation String String} (inside : implementation ∈ unit.implementation)
    {line : Line} (found : line ∈ Statement.linesAll 1 implementation.body) : line ∈ unit.lines := by
  have placed : line ∈ implementation.lines := by
    simp [Implementation.lines, blockLines, found]
  have listed : line ∈ unit.implementation.flatMap fun implementation =>
      implementation.lines ++ [blankLine] :=
    List.mem_flatMap.mpr ⟨implementation, inside, List.mem_append_left _ placed⟩
  unfold PascalUnit.lines
  simp only [List.mem_append, listed, or_true, true_or]

end Pascal

namespace Message

/-- The lines of a member are among those of a declaration, at some depth for each depth of the
declaration. -/
def ShownIn (member : Member) (declaration : TypeDeclaration) : Prop :=
  ∀ depth, ∃ deeper, member.lines deeper ⊆ declaration.lines depth

theorem shownIn_of_mem {member : Member} {generated : MessageClass}
    (inside : member ∈ generated.members) : ShownIn member generated.declaration := by
  intro depth
  refine ⟨_, List.Subset.trans (lines_subset_linesFrom inside depth none) ?_⟩
  rw [MessageClass.declaration, TypeDeclaration.lines]
  exact List.Subset.trans (List.subset_append_right _ _) (List.subset_append_left _ _)

/-- **The class of a message shows the classes of the messages nested in it**, at any depth, and
implements their methods. -/
theorem inner_class_shown {context : Context} (message : MessageType) :
    ∀ (place : Place) (generated : MessageClass),
      (generateMessage context place message).result = .ok generated →
      ∀ inner ∈ message.tree, ∃ place' parts, ClassParts.PartsOf parts context place' inner ∧
        (∀ member ∈ parts.derivedMembers, ShownIn member generated.declaration) ∧
        parts.ownImplementation ⊆ generated.implementation := by
  induction message using nested_induction with
  | step message ih =>
    intro place generated made inner inside
    obtain ⟨parts, found, -, rfl⟩ := generateMessage_eq_ok.mp made
    have of := classParts_eq_ok.mp found
    rw [MessageType.tree_eq, List.mem_cons, List.mem_flatMap] at inside
    rcases inside with rfl | ⟨outer, nested, inside⟩
    · refine ⟨place, parts, of, fun member derived => shownIn_of_mem ?_, List.subset_append_right _ _⟩
      exact List.mem_append_left _ (List.mem_append_right _ derived)
    · obtain ⟨generated, generated_inside, made⟩ := exists_left_of_forall₂ of.nested.flip nested
      obtain ⟨place', inner_parts, inner_of, shown, implemented⟩ := ih outer nested _ _ made inner inside
      have declared : Member.nestedType .publicSection [] generated.declaration ∈ parts.members :=
        List.mem_append_left _ (List.mem_append_left _ (List.mem_append_right _
          (List.mem_map_of_mem generated_inside)))
      refine ⟨place', inner_parts, inner_of, fun member derived depth => ?_, ?_⟩
      · have around : ShownIn _ (parts.assemble (place.shownName message)).declaration :=
          shownIn_of_mem declared
        obtain ⟨deeper, around⟩ := around depth
        obtain ⟨deepest, lines⟩ := shown member derived deeper
        exact ⟨deepest, List.Subset.trans lines around⟩
      · exact fun _ own => List.mem_append_left _
          (List.mem_flatMap.mpr ⟨generated, generated_inside, implemented own⟩)

/-! ### The names of fields -/

/-- The message with which a field refuses to become present without a value. -/
def refusalText (name : String) : String :=
  "Cannot mark field " ++ name ++ " as present without assigning a value"

/-- The exception with which a field refuses. -/
def refusal (name : String) : Action :=
  .raise "EProtobufInvalidOperation" (.quoted (refusalText name))

theorem refusal_text (name : String) : (refusal name).text ++ ";" =
    "raise EProtobufInvalidOperation.Create(" ++ stringLiteral (refusalText name) ++ ");" := by
  have lead : "raise " ++ "EProtobufInvalidOperation" ++ ".Create(" =
      "raise EProtobufInvalidOperation.Create(" := by decide
  have next : ")" ++ ";" = ");" := by decide
  rw [refusal, Action.text, Expr.text, lead, String.append_assoc, next]

/-- The setter of the presence of a field outside oneofs refuses on a line of its own. -/
theorem refusal_line {field : FieldPlan} (outside : field.membership = none) :
    ⟨3, (refusal field.field.name).text ++ ";"⟩ ∈
      Statement.linesAll 1 (Statement.mapAll Action.text Expr.text field.presenceSetterBody) := by
  have body : field.presenceSetterBody =
      [.ifElse incomingValue [ifThen (.negate field.has) [.simple (refusal field.field.name)]]
        field.releaseBody] := by
    unfold FieldPlan.presenceSetterBody
    rw [outside]
    rfl
  rw [body]
  simp only [ifThen, Statement.mapAll, Statement.map, Statement.linesAll, List.append_nil]
  refine thenBranch_lines_subset _ _ _ "if" 1 ?_
  rw [Statement.linesAll, Statement.linesAll, List.append_nil]
  refine thenBranch_lines_subset _ _ _ "if" 2 ?_
  rw [Statement.linesAll, Statement.lines]
  exact List.mem_cons_self ..

end Message

/-- A text quotes the name of a field: in the constant that holds it, and, where the field is singular
and belongs to no oneof, in the message with which it refuses to become present without a value. -/
structure NameQuoted (text : String) (field : Field) : Prop where
  constant : ∃ name, (name = Rule.fieldName.plain field.name ∨ name = Rule.fieldName.marked field.name) ∧
    ShowsLiteral text (name ++ " = ") field.name ";"
  refusal : field.repeated = false → field.oneofIndex = none →
    ShowsLiteral text "raise EProtobufInvalidOperation.Create(" (refusalText field.name) ");"

section

variable {parts : ClassParts} {context : Context} {place : Place} {message : MessageType}
  (of : parts.PartsOf context place message) {plan : FieldPlan} (planned : plan ∈ parts.plan.fields)
  {unit : CodeUnit}

include of planned

/-- A unit that shows the class of a field shows its name. -/
theorem constant_shown {declaration : TypeDeclaration} (declared : declaration ∈ unit.types)
    (shown : ∀ member ∈ parts.derivedMembers, ShownIn member declaration) :
    ShowsLiteral (CodeUnit.render unit) (plan.names.nameConstant ++ " = ") plan.field.name ";" := by
  have derived : plainMember .publicSection (.constant plan.names.nameConstant
      (stringLiteral plan.field.name)) ∈ parts.derivedMembers :=
    (mem_flatMapSlots of.covers.slots_perm).mpr
      (.inl ⟨plan, planned, List.mem_cons_of_mem _ (List.mem_cons_self ..)⟩)
  obtain ⟨depth, lines⟩ := shown _ derived 1
  have line : ⟨depth, plan.names.nameConstant ++ " = " ++ stringLiteral plan.field.name ++ ";"⟩ ∈
      (CodeUnit.toText unit).lines :=
    mem_lines_of_type declared (lines (List.mem_cons_self ..))
  exact showsLiteral_of_line line (by decide)

/-- A unit that implements the methods of a class shows the names with which its fields refuse. -/
theorem refusal_shown (implemented : parts.ownImplementation ⊆ unit.implementation)
    (singular : plan.field.repeated = false) (outside : plan.field.oneofIndex = none) :
    ShowsLiteral (CodeUnit.render unit) "raise EProtobufInvalidOperation.Create("
      (refusalText plan.field.name) ");" := by
  have present := of.covers.presence plan planned
  rw [singular, Bool.not_false, Option.isSome_iff_exists] at present
  obtain ⟨presence, shown⟩ := present
  have own : plan.implement presence.setterMethod plan.presenceSetterBody ∈ parts.ownImplementation := by
    refine List.mem_append_left _ ((mem_flatMapSlots of.covers.slots_perm).mpr
      (.inl ⟨plan, planned, ?_⟩))
    simp [FieldPlan.implementations, shown]
  have free : plan.membership = none := by
    have belongs := (of.covers.planned plan planned).membership
    cases stored : plan.membership with
    | none => rfl
    | some membership =>
      rw [stored] at belongs
      obtain ⟨position, found, -⟩ := belongs
      exact absurd (outside.symm.trans found) (by simp)
  have line : _ ∈ (CodeUnit.toText unit).lines :=
    mem_lines_of_implementation (List.mem_map_of_mem (implemented own)) (refusal_line free)
  rw [refusal_text] at line
  exact showsLiteral_of_line line (by decide)

end

/-- **Literals denote what they were written for.** A literal before anything that does not start with a
quote is read as a whole: it gives the text that it was written for, and leaves what follows. So in the
text of a unit the constants for names of fields and the messages of exceptions read as the names in the
schema, and the code goes on behind them as it was generated. -/
theorem literals_denote_names :
    (∀ text rest : String, rest.toList.head? ≠ some '\'' →
      readLiteral (stringLiteral text ++ rest) = some (text, rest)) ∧
    ∀ (index : TypeIndex) (runtime : Runtime) (file : Schema.File) (unit : CodeUnit),
      (generateUnit index runtime file).result = .ok unit →
      ∀ message ∈ MessageType.trees file.messages, ∀ field ∈ message.fields,
        NameQuoted (CodeUnit.render unit) field := by
  refine ⟨fun _ _ ends => readLiteral_eq_some.mpr ⟨rfl, ends⟩, ?_⟩
  intro index runtime file unit generated message listed field inside
  obtain ⟨identifier, declarations, classes, unitParts⟩ := generateUnit_parts generated
  rw [MessageType.trees_eq, List.mem_flatMap] at listed
  obtain ⟨outer, outer_inside, nested⟩ := listed
  obtain ⟨made, made_inside, success⟩ := exists_left_of_forall₂ unitParts.made.flip outer_inside
  obtain ⟨place, parts, of, shown, implemented⟩ := inner_class_shown outer _ made success message nested
  rw [← of.covers.fields_eq] at inside
  obtain ⟨plan, planned, rfl⟩ := List.mem_map.mp inside
  have declared : made.declaration ∈ unit.types := by
    rw [unitParts.types]
    exact List.mem_append_right _ (List.mem_map_of_mem made_inside)
  have implementations : parts.ownImplementation ⊆ unit.implementation := by
    rw [unitParts.implementation]
    exact fun _ own => List.mem_flatMap.mpr ⟨made, made_inside, implemented own⟩
  exact ⟨⟨_, (Execution.constants_named of planned).2, constant_shown of planned declared shown⟩,
    refusal_shown of planned implementations⟩

/-- A file with quotes in the name of a field of a nested message: at both ends, and next to each other
inside it. -/
def quotingFile : Schema.File :=
  { name := "quote.proto"
    messages := [{
      name := "Quote"
      nestedMessages := [{
        name := "Mark"
        fields := [{ name := "'it''s'", number := 1, type := .scalar .int32 }] }] }] }

/-- The unit of this file quotes the name. -/
theorem quoting_name_quoted :
    readLiteral "'''it''''s''';" = some ("'it''s'", ";") ∧
    ∃ index unit, TypeIndex.build [quotingFile] = .ok index ∧
      (generateUnit index .reference quotingFile).result = .ok unit ∧
      NameQuoted (CodeUnit.render unit) ⟨"'it''s'", 1, .scalar .int32, false, none, false⟩ ∧
      ShowsLiteral (CodeUnit.render unit) "raise EProtobufInvalidOperation.Create("
        "Cannot mark field 'it''s' as present without assigning a value" ");" := by
  have evaluated : (do
      let index ← TypeIndex.build [quotingFile]
      let unit ← (generateUnit index .reference quotingFile).result
      return unit.types.length) = .ok 2 := by
    decide +kernel
  obtain ⟨index, built, evaluated⟩ := bind_eq_ok.mp evaluated
  obtain ⟨unit, generated, -⟩ := bind_eq_ok.mp evaluated
  have written : stringLiteral "'it''s'" ++ ";" = "'''it''''s''';" := by decide
  have read := literals_denote_names.1 "'it''s'" ";" (by decide)
  have quoted := literals_denote_names.2 index .reference quotingFile unit generated _
    (List.mem_cons_of_mem _ (List.mem_cons_self ..)) _ (List.mem_cons_self ..)
  rw [written] at read
  exact ⟨read, index, unit, built, generated, quoted, quoted.refusal rfl rfl⟩

end ProtoPascal
