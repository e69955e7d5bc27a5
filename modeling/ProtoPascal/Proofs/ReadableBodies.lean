import ProtoPascal.Proofs.LayoutLines

/-!
The text of a body can be read back. A statement is told by the last character of its first line, and
what stands inside it is deeper than the line that ends it. So two bodies with the same text consist of
the same statements, apart from case statements without arms, which leave no trace. This holds whatever
the codes, conditions, selectors and labels look like, as long as each of them fits on a line.

* `Statement.induction`: one case for each kind of statement;
* `Statement.lines_eq`: the first line of a statement and those after it;
* `readable_ifElse`: the branches of a conditional statement are told apart;
* `block_text_unambiguous`: bodies with the same text.
-/

namespace ProtoPascal.Pascal

/-! ### Statements and what they hold -/

section

variable {Act Exp : Type}

/-- What holds of a statement if it holds of the statements in it, and of a list of statements if it
holds of each of them. -/
theorem Statement.induction (single : Statement Act Exp → Prop)
    (several : List (Statement Act Exp) → Prop) (choices : List (Arm Act Exp) → Prop)
    (simple : ∀ action, single (.simple action))
    (ifElse : ∀ condition thenBranch elseBranch, several thenBranch → several elseBranch →
      (∀ statement ∈ elseBranch, single statement) →
      single (.ifElse condition thenBranch elseBranch))
    (caseOf : ∀ selector arms, choices arms → single (.caseOf selector arms))
    (nil : several [])
    (cons : ∀ statement rest, single statement → several rest → several (statement :: rest))
    (none : choices [])
    (arm : ∀ label body rest, several body → choices rest → choices (.arm label body :: rest)) :
    (∀ body, several body) ∧ ∀ arms, choices arms := by
  have each (statement : Statement Act Exp) : single statement :=
    @Statement.rec Act Exp single
      (fun
        | .arm _ body => several body)
      (fun body => several body ∧ ∀ statement ∈ body, single statement) choices simple
      (fun condition thenBranch elseBranch first second =>
        ifElse condition thenBranch elseBranch first.1 second.1 second.2)
      caseOf (fun _ _ inner => inner.1)
      ⟨nil, fun _ impossible => absurd impossible List.not_mem_nil⟩
      (fun statement rest first others =>
        ⟨cons statement rest first others.1, List.forall_mem_cons.mpr ⟨first, others.2⟩⟩)
      none
      (fun
        | .arm label body => fun rest inner others => arm label body rest inner others)
      statement
  have bodies (body : List (Statement Act Exp)) : several body := by
    induction body with
    | nil => exact nil
    | cons statement rest ih => exact cons statement rest (each statement) ih
  refine ⟨bodies, fun arms => ?_⟩
  induction arms with
  | nil => exact none
  | cons first rest ih =>
    cases first with
    | arm label body => exact arm label body rest (bodies body) ih

/-- Whether a statement is a case statement without arms. -/
def Statement.isArmless : Statement Act Exp → Bool
  | .caseOf _ [] => true
  | _ => false

mutual

/-- The statement without the case statements in it that have no arms. -/
def Statement.pruned : Statement Act Exp → Statement Act Exp
  | .simple action => .simple action
  | .ifElse condition thenBranch elseBranch =>
    .ifElse condition (Statement.prunedAll thenBranch) (Statement.prunedAll elseBranch)
  | .caseOf selector arms => .caseOf selector (Arm.prunedAll arms)

/-- The statements without the case statements that have no arms, also inside them. -/
def Statement.prunedAll : List (Statement Act Exp) → List (Statement Act Exp)
  | [] => []
  | statement :: rest =>
    if statement.isArmless then Statement.prunedAll rest
    else statement.pruned :: Statement.prunedAll rest

/-- The arms without the case statements in them that have no arms. -/
def Arm.prunedAll : List (Arm Act Exp) → List (Arm Act Exp)
  | [] => []
  | .arm label body :: rest => .arm label (Statement.prunedAll body) :: Arm.prunedAll rest

end

end

mutual

/-- The texts of which a statement is made: codes, conditions, selectors and labels. -/
def Statement.texts : Statement String String → List String
  | .simple code => [code]
  | .ifElse condition thenBranch elseBranch =>
    condition :: (Statement.textsAll thenBranch ++ Statement.textsAll elseBranch)
  | .caseOf selector arms => selector :: Arm.textsAll arms

/-- The texts of which statements are made. -/
def Statement.textsAll : List (Statement String String) → List String
  | [] => []
  | statement :: rest => statement.texts ++ Statement.textsAll rest

/-- The texts of which arms are made. -/
def Arm.textsAll : List (Arm String String) → List String
  | [] => []
  | .arm label body :: rest => label :: (Statement.textsAll body ++ Arm.textsAll rest)

end

theorem Statement.textsAll_eq_flatMap (body : List (Statement String String)) :
    Statement.textsAll body = body.flatMap Statement.texts := by
  induction body with
  | nil => rw [Statement.textsAll, List.flatMap_nil]
  | cons statement rest ih => rw [Statement.textsAll, List.flatMap_cons, ih]

/-! ### The first line of a statement -/

/-- The text of the first line of a statement. -/
def Statement.firstText (opening : String) : Statement String String → String
  | .simple code => code ++ ";"
  | .ifElse condition _ _ => opening ++ " " ++ condition ++ " then"
  | .caseOf selector _ => "case " ++ selector ++ " of"

/-- The lines after the first branch of a conditional statement, with the line that ends this
branch. -/
def elseLines (depth : Nat) : List (Statement String String) → List Line
  | [] => [⟨depth, "end;"⟩]
  | [.ifElse condition thenBranch elseBranch] =>
    ⟨depth, "end"⟩ :: Statement.lines "else if" depth (.ifElse condition thenBranch elseBranch)
  | elseBranch =>
    [⟨depth, "end"⟩, ⟨depth, "else"⟩, ⟨depth, "begin"⟩]
      ++ Statement.linesAll (depth + 1) elseBranch ++ [⟨depth, "end;"⟩]

/-- The lines of a statement after the first. -/
def Statement.laterLines (depth : Nat) : Statement String String → List Line
  | .simple _ => []
  | .ifElse _ thenBranch elseBranch =>
    ⟨depth, "begin"⟩ :: (Statement.linesAll (depth + 1) thenBranch ++ elseLines depth elseBranch)
  | .caseOf _ arms => Arm.linesAll (depth + 1) arms ++ [⟨depth, "end;"⟩]

theorem Statement.lines_of_isArmless {statement : Statement String String}
    (armless : statement.isArmless = true) (opening : String) (depth : Nat) :
    statement.lines opening depth = [] := by
  unfold Statement.isArmless at armless
  split at armless
  · rw [Statement.lines]
  · cases armless

/-- **The first line of a statement and those after it.** -/
theorem Statement.lines_eq (opening : String) (depth : Nat) {statement : Statement String String}
    (armed : statement.isArmless = false) :
    statement.lines opening depth =
      ⟨depth, statement.firstText opening⟩ :: statement.laterLines depth := by
  cases statement with
  | simple code => rw [Statement.lines, Statement.firstText, Statement.laterLines]
  | ifElse condition thenBranch elseBranch =>
    rw [Statement.firstText, Statement.laterLines]
    fun_cases elseLines depth elseBranch with
    | case1 => simp [Statement.lines]
    | case2 => simp [Statement.lines]
    | case3 some_statement unfolded => simp [Statement.lines]
  | caseOf selector arms =>
    cases arms with
    | nil => cases armed
    | cons arm rest =>
      rw [Statement.lines, Statement.firstText, Statement.laterLines]
      · rfl
      · exact List.cons_ne_nil _ _

/-- The last character of the first line, which tells the kind of a statement. -/
def Statement.mark : Statement String String → Char
  | .simple _ => ';'
  | .ifElse .. => 'n'
  | .caseOf .. => 'f'

theorem Statement.getLast?_firstText (opening : String) (statement : Statement String String) :
    (statement.firstText opening).toList.getLast? = some statement.mark := by
  cases statement with
  | simple code =>
    rw [Statement.firstText, String.toList_append, List.getLast?_append]
    rfl
  | ifElse condition thenBranch elseBranch =>
    rw [Statement.firstText, String.toList_append, List.getLast?_append]
    rfl
  | caseOf selector arms =>
    rw [Statement.firstText, String.toList_append, List.getLast?_append]
    rfl

theorem Statement.firstText_ne_empty (opening : String) (statement : Statement String String) :
    statement.firstText opening ≠ "" := by
  intro empty
  have last := statement.getLast?_firstText opening
  rw [empty] at last
  cases last

/-! ### The lines of a body -/

/-- A line of a body at a depth, made of an allowed text or a word of the language. -/
inductive BodyLine (allowed : String → Prop) : Nat → Line → Prop
  | word {depth : Nat} {text : String} (listed : text ∈ ["begin", "end", "end;", "else"]) :
    BodyLine allowed depth ⟨depth, text⟩
  | simple {depth : Nat} {code : String} (fits : allowed code) :
    BodyLine allowed depth ⟨depth, code ++ ";"⟩
  | condition {depth : Nat} {opening condition : String} (listed : opening ∈ ["if", "else if"])
    (fits : allowed condition) :
    BodyLine allowed depth ⟨depth, opening ++ " " ++ condition ++ " then"⟩
  | selector {depth : Nat} {selector : String} (fits : allowed selector) :
    BodyLine allowed depth ⟨depth, "case " ++ selector ++ " of"⟩
  | label {depth : Nat} {label : String} (fits : allowed label) :
    BodyLine allowed depth ⟨depth, label ++ ":"⟩
  | deeper {depth : Nat} {line : Line} (inner : BodyLine allowed (depth + 1) line) :
    BodyLine allowed depth line

theorem BodyLine.within {allowed : String → Prop} {depth : Nat} {line : Line}
    (inside : BodyLine allowed depth line) : line.Within depth := by
  induction inside with
  | word listed =>
    refine ⟨Nat.le_refl _, ?_⟩
    rintro rfl
    exact absurd listed (by decide)
  | simple => exact ⟨Nat.le_refl _, by simp⟩
  | condition => exact ⟨Nat.le_refl _, by simp⟩
  | selector => exact ⟨Nat.le_refl _, by simp⟩
  | label => exact ⟨Nat.le_refl _, by simp⟩
  | deeper _ ih => exact ih.mono (Nat.le_succ _)

theorem BodyLine.oneLine {depth : Nat} {line : Line} (inside : BodyLine OneLine depth line) :
    OneLine line.text := by
  have words : ∀ text ∈ ["begin", "end", "end;", "else"], OneLine text := by decide
  have openings : ∀ text ∈ ["if", "else if"], OneLine text := by decide
  induction inside with
  | word listed => exact words _ listed
  | simple fits => exact oneLine_append.mpr ⟨fits, by decide⟩
  | condition listed fits =>
    simp only [oneLine_append]
    exact ⟨⟨⟨openings _ listed, by decide⟩, fits⟩, by decide⟩
  | selector fits =>
    simp only [oneLine_append]
    exact ⟨⟨by decide, fits⟩, by decide⟩
  | label fits => exact oneLine_append.mpr ⟨fits, by decide⟩
  | deeper _ ih => exact ih

section

variable {allowed : String → Prop}

theorem elseLines_bodyLine {depth : Nat} {elseBranch : List (Statement String String)}
    (inner : ∀ line ∈ Statement.linesAll (depth + 1) elseBranch, BodyLine allowed (depth + 1) line)
    (folded : ∀ statement ∈ elseBranch, ∀ line ∈ statement.lines "else if" depth,
      BodyLine allowed depth line) :
    ∀ line ∈ elseLines depth elseBranch, BodyLine allowed depth line := by
  fun_cases elseLines depth elseBranch with
  | case1 => exact List.forall_mem_singleton.mpr (.word (by decide))
  | case2 =>
    exact List.forall_mem_cons.mpr ⟨.word (by decide), folded _ (List.mem_singleton_self _)⟩
  | case3 =>
    simp only [List.forall_mem_append, List.forall_mem_cons]
    exact ⟨⟨⟨.word (by decide), .word (by decide), .word (by decide), List.forall_mem_nil _⟩,
      fun line inside => .deeper (inner line inside)⟩, .word (by decide), List.forall_mem_nil _⟩

/-- **What the lines of a body are**, and those of arms. -/
theorem lines_bodyLine :
    (∀ body depth, (∀ text ∈ Statement.textsAll body, allowed text) →
      ∀ line ∈ Statement.linesAll depth body, BodyLine allowed depth line) ∧
    ∀ arms depth, (∀ text ∈ Arm.textsAll arms, allowed text) →
      ∀ line ∈ Arm.linesAll depth arms, BodyLine allowed depth line := by
  refine Statement.induction
    (fun statement => ∀ opening ∈ ["if", "else if"], ∀ depth,
      (∀ text ∈ statement.texts, allowed text) →
        ∀ line ∈ statement.lines opening depth, BodyLine allowed depth line)
    (fun body => ∀ depth, (∀ text ∈ Statement.textsAll body, allowed text) →
      ∀ line ∈ Statement.linesAll depth body, BodyLine allowed depth line)
    (fun arms => ∀ depth, (∀ text ∈ Arm.textsAll arms, allowed text) →
      ∀ line ∈ Arm.linesAll depth arms, BodyLine allowed depth line)
    ?simple ?ifElse ?caseOf ?nil ?cons ?noArms ?arm
  case simple =>
    intro code opening _ depth fits
    rw [Statement.lines, List.forall_mem_singleton]
    exact .simple (fits code (List.mem_singleton_self _))
  case ifElse =>
    intro condition thenBranch elseBranch first second folded opening listed depth fits
    rw [Statement.texts, List.forall_mem_cons, List.forall_mem_append] at fits
    have elseFits : ∀ statement ∈ elseBranch, ∀ text ∈ statement.texts, allowed text := by
      rw [Statement.textsAll_eq_flatMap elseBranch] at fits
      exact fun statement inside text held =>
        fits.2.2 text (List.mem_flatMap.mpr ⟨statement, inside, held⟩)
    rw [Statement.lines_eq opening depth rfl, Statement.laterLines, List.forall_mem_cons,
      List.forall_mem_cons, List.forall_mem_append]
    refine ⟨.condition listed fits.1, .word (by decide), ?_, ?_⟩
    · exact fun line inside => .deeper (first (depth + 1) fits.2.1 line inside)
    · refine elseLines_bodyLine (second (depth + 1) fits.2.2) ?_
      intro statement inside
      exact folded statement inside "else if" (by decide) depth (elseFits statement inside)
  case caseOf =>
    intro selector arms inner opening _ depth fits
    rw [Statement.texts, List.forall_mem_cons] at fits
    by_cases armless : (Statement.caseOf selector arms).isArmless = true
    · rw [Statement.lines_of_isArmless armless]
      exact List.forall_mem_nil _
    · rw [Bool.not_eq_true] at armless
      rw [Statement.lines_eq opening depth armless, Statement.laterLines, List.forall_mem_cons,
        List.forall_mem_append, List.forall_mem_singleton]
      exact ⟨.selector fits.1, fun line inside => .deeper (inner (depth + 1) fits.2 line inside),
        .word (by decide)⟩
  case nil =>
    intro depth _
    rw [Statement.linesAll]
    exact List.forall_mem_nil _
  case cons =>
    intro statement rest first others depth fits
    rw [Statement.textsAll, List.forall_mem_append] at fits
    rw [Statement.linesAll, List.forall_mem_append]
    exact ⟨first "if" (by decide) depth fits.1, others depth fits.2⟩
  case noArms =>
    intro depth _
    rw [Arm.linesAll]
    exact List.forall_mem_nil _
  case arm =>
    intro label body rest inner others depth fits
    rw [Arm.textsAll, List.forall_mem_cons, List.forall_mem_append] at fits
    simp only [Arm.linesAll, List.forall_mem_append, List.forall_mem_cons]
    exact ⟨⟨⟨⟨.label fits.1, .word (by decide), List.forall_mem_nil _⟩,
      fun line inside => .deeper (inner (depth + 1) fits.2.1 line inside)⟩, .word (by decide),
      List.forall_mem_nil _⟩, others depth fits.2.2⟩

end

theorem linesAll_within (depth : Nat) (body : List (Statement String String)) :
    ∀ line ∈ Statement.linesAll depth body, line.Within depth :=
  fun line inside => (lines_bodyLine.1 body depth (fun _ _ => trivial) line inside :
    BodyLine (fun _ => True) depth line).within

theorem armLines_within (depth : Nat) (arms : List (Arm String String)) :
    ∀ line ∈ Arm.linesAll depth arms, line.Within depth :=
  fun line inside => (lines_bodyLine.2 arms depth (fun _ _ => trivial) line inside :
    BodyLine (fun _ => True) depth line).within

theorem linesAll_oneLine {body : List (Statement String String)}
    (single : ∀ text ∈ Statement.textsAll body, OneLine text) (depth : Nat) :
    ∀ line ∈ Statement.linesAll depth body, OneLine line.text :=
  fun line inside => (lines_bodyLine.1 body depth single line inside).oneLine

/-! ### Reading lines -/

section

variable {depth : Nat} {rest rest' : List String}

/-- Two lines at one depth that stand first in the same text. -/
theorem first_line_inj {left right : String} (left_filled : left ≠ "") (right_filled : right ≠ "")
    (same : (Line.mk depth left).content :: rest = (Line.mk depth right).content :: rest') :
    left = right ∧ rest = rest' := by
  obtain ⟨first, later⟩ := List.cons_eq_cons.mp same
  exact ⟨Line.content_inj left_filled right_filled first, later⟩

/-- **A block ends at the first line that does not stand deeper.** -/
theorem block_inj {left right : List Line} {close close' : String}
    (left_within : ∀ line ∈ left, line.Within (depth + 1))
    (right_within : ∀ line ∈ right, line.Within (depth + 1))
    (ends : close.toList.head? = some 'e') (ends' : close'.toList.head? = some 'e')
    (same : left.map Line.content ++ (Line.mk depth close).content :: rest =
      right.map Line.content ++ (Line.mk depth close').content :: rest') :
    left.map Line.content = right.map Line.content ∧
      (Line.mk depth close).content :: rest = (Line.mk depth close').content :: rest' := by
  have indented {lines : List Line} (within : ∀ line ∈ lines, line.Within (depth + 1)) :
      ∀ content ∈ lines.map Line.content, Indented (depth + 1) content :=
    List.forall_mem_map.mpr fun line inside => (within line inside).indented
  obtain ⟨inner, closed, later⟩ := append_cons_cancel (indented left_within) (indented right_within)
    (not_indented_of_head ends (by decide)) (not_indented_of_head ends' (by decide)) same
  exact ⟨inner, List.cons_eq_cons.mpr ⟨closed, later⟩⟩

/-- Statements whose lines start the same text are of one kind and have the same first line. -/
theorem first_statement_inj {opening : String} {statement other : Statement String String}
    (armed : statement.isArmless = false) (other_armed : other.isArmless = false)
    (same : (statement.lines opening depth).map Line.content ++ rest =
      (other.lines opening depth).map Line.content ++ rest') :
    statement.mark = other.mark ∧ statement.firstText opening = other.firstText opening ∧
      (statement.laterLines depth).map Line.content ++ rest =
        (other.laterLines depth).map Line.content ++ rest' := by
  rw [Statement.lines_eq opening depth armed, Statement.lines_eq opening depth other_armed] at same
  obtain ⟨first, later⟩ := first_line_inj (statement.firstText_ne_empty opening)
    (other.firstText_ne_empty opening) same
  have marks := statement.getLast?_firstText opening
  rw [first, other.getLast?_firstText opening, Option.some.injEq] at marks
  exact ⟨marks.symm, first, later⟩

/-- The lines after the first branch of a conditional statement start with the end of this branch. -/
theorem elseLines_eq (depth : Nat) (elseBranch : List (Statement String String)) :
    ∃ close later, close.toList.head? = some 'e' ∧
      elseLines depth elseBranch = ⟨depth, close⟩ :: later := by
  fun_cases elseLines depth elseBranch with
  | case1 => exact ⟨"end;", _, rfl, rfl⟩
  | case2 => exact ⟨"end", _, rfl, rfl⟩
  | case3 => exact ⟨"end", _, rfl, rfl⟩

/-- The first branch of a conditional statement ends where the rest of the statement starts. -/
theorem thenBranch_inj {thenBranch elseBranch other_then other_else : List (Statement String String)}
    (same : (Statement.linesAll (depth + 1) thenBranch).map Line.content ++
        ((elseLines depth elseBranch).map Line.content ++ rest) =
      (Statement.linesAll (depth + 1) other_then).map Line.content ++
        ((elseLines depth other_else).map Line.content ++ rest')) :
    (Statement.linesAll (depth + 1) thenBranch).map Line.content =
        (Statement.linesAll (depth + 1) other_then).map Line.content ∧
      (elseLines depth elseBranch).map Line.content ++ rest =
        (elseLines depth other_else).map Line.content ++ rest' := by
  obtain ⟨close, later, ends, lines⟩ := elseLines_eq depth elseBranch
  obtain ⟨close', later', ends', lines'⟩ := elseLines_eq depth other_else
  rw [lines, lines'] at same ⊢
  exact block_inj (linesAll_within _ _) (linesAll_within _ _) ends ends' same

end

/-! ### Reading statements -/

/-- The lines of a statement, with whatever follows them, show the statement and what follows. -/
def Statement.Readable (statement : Statement String String) : Prop :=
  ∀ (opening : String) (depth : Nat) (other : Statement String String) (rest rest' : List String),
    statement.isArmless = false → other.isArmless = false →
    (statement.lines opening depth).map Line.content ++ rest =
      (other.lines opening depth).map Line.content ++ rest' →
    statement.pruned = other.pruned ∧ rest = rest'

/-- The lines of statements show them. -/
def ReadableBody (body : List (Statement String String)) : Prop :=
  ∀ depth other, (Statement.linesAll depth body).map Line.content =
      (Statement.linesAll depth other).map Line.content →
    Statement.prunedAll body = Statement.prunedAll other

/-- The lines of arms show them. -/
def ReadableArms (arms : List (Arm String String)) : Prop :=
  ∀ depth other, (Arm.linesAll depth arms).map Line.content =
      (Arm.linesAll depth other).map Line.content →
    Arm.prunedAll arms = Arm.prunedAll other

theorem readable_simple (code : String) : (Statement.simple code).Readable := by
  intro opening depth other rest rest' armed other_armed same
  obtain ⟨kind, first, later⟩ := first_statement_inj armed other_armed same
  cases other with
  | simple code' =>
    obtain rfl : code = code' := (String.append_left_inj ";").mp first
    exact ⟨rfl, later⟩
  | ifElse => exact absurd kind (by simp [Statement.mark])
  | caseOf => exact absurd kind (by simp [Statement.mark])

theorem readable_caseOf (selector : String) {arms : List (Arm String String)}
    (inner : ReadableArms arms) : (Statement.caseOf selector arms).Readable := by
  intro opening depth other rest rest' armed other_armed same
  obtain ⟨kind, first, later⟩ := first_statement_inj armed other_armed same
  cases other with
  | caseOf selector' arms' =>
    obtain rfl : selector = selector' :=
      (String.append_right_inj "case ").mp ((String.append_left_inj " of").mp first)
    rw [Statement.laterLines, Statement.laterLines, List.map_append, List.map_append,
      List.append_assoc, List.append_assoc] at later
    obtain ⟨choices, closed⟩ := block_inj (armLines_within _ arms) (armLines_within _ arms') rfl rfl
      later
    rw [Statement.pruned, Statement.pruned, inner (depth + 1) arms' choices]
    exact ⟨rfl, (List.cons_eq_cons.mp closed).2⟩
  | simple => exact absurd kind (by simp [Statement.mark])
  | ifElse => exact absurd kind (by simp [Statement.mark])

section

variable {depth : Nat} {rest rest' : List String}

/-- The end of a statement and the end of a branch before an else branch. -/
theorem end_ne_end : (Line.mk depth "end;").content :: rest ≠ (Line.mk depth "end").content :: rest' :=
  fun same => absurd (first_line_inj (by decide) (by decide) same).1 (by decide)

/-- A statement never starts like a block after `else`. -/
theorem lines_ne_else (opening : String) {statement : Statement String String}
    (armed : statement.isArmless = false) :
    (statement.lines opening depth).map Line.content ++ rest ≠
      (Line.mk depth "else").content :: rest' := by
  intro same
  rw [Statement.lines_eq opening depth armed] at same
  have first := (first_line_inj (statement.firstText_ne_empty opening) (by decide) same).1
  have last : some 'e' = some statement.mark := by
    rw [← statement.getLast?_firstText opening, first]
    rfl
  cases statement with
  | simple => exact absurd last (by simp [Statement.mark])
  | ifElse => exact absurd last (by simp [Statement.mark])
  | caseOf => exact absurd last (by simp [Statement.mark])

/-- The three forms of an else branch are told apart by their first two lines: nothing, a conditional
statement after `else if`, and a block. -/
theorem elseBranch_inj {elseBranch other : List (Statement String String)}
    (inner : ReadableBody elseBranch) (folded : ∀ statement ∈ elseBranch, statement.Readable)
    (same : (elseLines depth elseBranch).map Line.content ++ rest =
      (elseLines depth other).map Line.content ++ rest') :
    Statement.prunedAll elseBranch = Statement.prunedAll other ∧ rest = rest' := by
  revert same
  fun_cases elseLines depth elseBranch with
  | case1 =>
    fun_cases elseLines depth other with
    | case1 => exact fun same => ⟨rfl, (List.cons_eq_cons.mp same).2⟩
    | case2 => exact fun same => absurd same end_ne_end
    | case3 => exact fun same => absurd same end_ne_end
  | case2 condition thenBranch innerElse =>
    fun_cases elseLines depth other with
    | case1 => exact fun same => absurd same.symm end_ne_end
    | case2 condition' thenBranch' innerElse' =>
      intro same
      obtain ⟨heads, later⟩ := folded _ (List.mem_singleton_self _) "else if" depth _ rest rest' rfl rfl
        (List.cons_eq_cons.mp same).2
      simp only [Statement.prunedAll, heads]
      exact ⟨rfl, later⟩
    | case3 => exact fun same => absurd (List.cons_eq_cons.mp same).2 (lines_ne_else "else if" rfl)
  | case3 =>
    fun_cases elseLines depth other with
    | case1 => exact fun same => absurd same.symm end_ne_end
    | case2 =>
      exact fun same => absurd (List.cons_eq_cons.mp same).2.symm (lines_ne_else "else if" rfl)
    | case3 =>
      intro same
      simp only [List.map_cons, List.map_append, List.cons_append, List.append_assoc,
        List.nil_append, List.cons.injEq, true_and] at same
      obtain ⟨bodies, closed⟩ := block_inj (linesAll_within _ elseBranch) (linesAll_within _ other)
        rfl rfl same
      exact ⟨inner (depth + 1) other bodies, (List.cons_eq_cons.mp closed).2⟩

end

/-- **The branches of a conditional statement are told apart.** -/
theorem readable_ifElse (condition : String) {thenBranch elseBranch : List (Statement String String)}
    (first_readable : ReadableBody thenBranch) (second_readable : ReadableBody elseBranch)
    (folded : ∀ statement ∈ elseBranch, statement.Readable) :
    (Statement.ifElse condition thenBranch elseBranch).Readable := by
  intro opening depth other rest rest' armed other_armed same
  obtain ⟨kind, first, later⟩ := first_statement_inj armed other_armed same
  cases other with
  | ifElse condition' thenBranch' elseBranch' =>
    obtain rfl : condition = condition' :=
      (String.append_right_inj (opening ++ " ")).mp ((String.append_left_inj " then").mp first)
    simp only [Statement.laterLines, List.map_cons, List.map_append, List.cons_append,
      List.append_assoc, List.cons.injEq, true_and] at later
    obtain ⟨thens, elses⟩ := thenBranch_inj later
    obtain ⟨second, following⟩ := elseBranch_inj second_readable folded elses
    rw [Statement.pruned, Statement.pruned, first_readable (depth + 1) thenBranch' thens, second]
    exact ⟨rfl, following⟩
  | simple => exact absurd kind (by simp [Statement.mark])
  | caseOf => exact absurd kind (by simp [Statement.mark])

/-- Statements have no lines, or there is a first one that has. -/
theorem linesAll_eq_nil_or_first (body : List (Statement String String)) :
    (∀ depth, Statement.linesAll depth body = []) ∧ Statement.prunedAll body = [] ∨
    ∃ (first : Statement String String) (rest : List (Statement String String)),
      first.isArmless = false ∧
      (∀ depth, Statement.linesAll depth body =
        first.lines "if" depth ++ Statement.linesAll depth rest) ∧
      Statement.prunedAll body = first.pruned :: Statement.prunedAll rest := by
  induction body with
  | nil => exact .inl ⟨fun depth => by rw [Statement.linesAll], by rw [Statement.prunedAll]⟩
  | cons statement rest ih =>
    by_cases armless : statement.isArmless = true
    · have skipped (depth : Nat) :
          Statement.linesAll depth (statement :: rest) = Statement.linesAll depth rest := by
        rw [Statement.linesAll, Statement.lines_of_isArmless armless, List.nil_append]
      simp only [skipped, Statement.prunedAll, if_pos armless]
      exact ih
    · refine .inr ⟨statement, rest, by simpa using armless, fun depth => ?_, ?_⟩
      · rw [Statement.linesAll]
      · rw [Statement.prunedAll, if_neg armless]

theorem readableBody_nil : ReadableBody [] := by
  intro depth other same
  rw [Statement.linesAll] at same
  obtain ⟨-, pruned⟩ | ⟨first, rest, armed, lines, -⟩ := linesAll_eq_nil_or_first other
  · rw [pruned, Statement.prunedAll]
  · rw [lines, Statement.lines_eq "if" depth armed] at same
    cases same

theorem readableBody_cons {statement : Statement String String} {rest : List (Statement String String)}
    (first_readable : statement.Readable) (rest_readable : ReadableBody rest) :
    ReadableBody (statement :: rest) := by
  intro depth other same
  rw [Statement.linesAll] at same
  rw [Statement.prunedAll]
  split
  next armless =>
    rw [Statement.lines_of_isArmless armless, List.nil_append] at same
    exact rest_readable depth other same
  next armed =>
    rw [Bool.not_eq_true] at armed
    obtain ⟨none, -⟩ | ⟨first, later, first_armed, lines, pruned⟩ := linesAll_eq_nil_or_first other
    · rw [none, Statement.lines_eq "if" depth armed] at same
      cases same
    · rw [lines, List.map_append, List.map_append] at same
      obtain ⟨heads, tails⟩ := first_readable "if" depth first _ _ armed first_armed same
      rw [pruned, heads, rest_readable depth later tails]

theorem readableArms_nil : ReadableArms [] := by
  intro depth other same
  cases other with
  | nil => rfl
  | cons first rest =>
    cases first with
    | arm label body =>
      rw [Arm.linesAll, Arm.linesAll] at same
      cases same

theorem readableArms_cons (label : String) {body : List (Statement String String)}
    {rest : List (Arm String String)} (inner : ReadableBody body) (later_readable : ReadableArms rest) :
    ReadableArms (.arm label body :: rest) := by
  intro depth other same
  cases other with
  | nil =>
    rw [Arm.linesAll, Arm.linesAll] at same
    cases same
  | cons first rest' =>
    cases first with
    | arm label' body' =>
      simp only [Arm.linesAll, List.map_cons, List.map_append, List.cons_append, List.append_assoc,
        List.nil_append] at same
      obtain ⟨labels, later⟩ := first_line_inj (by simp) (by simp) same
      obtain rfl : label = label' := (String.append_left_inj ":").mp labels
      obtain ⟨bodies, closed⟩ := block_inj (linesAll_within _ body) (linesAll_within _ body') rfl rfl
        (List.cons_eq_cons.mp later).2
      rw [Arm.prunedAll, Arm.prunedAll, inner (depth + 1) body' bodies,
        later_readable depth rest' (List.cons_eq_cons.mp closed).2]

/-- **The lines of a body show it**, apart from case statements without arms. -/
theorem readableBody (body : List (Statement String String)) : ReadableBody body :=
  (Statement.induction Statement.Readable ReadableBody ReadableArms readable_simple
    (fun condition _ _ first second folded => readable_ifElse condition first second folded)
    (fun selector _ inner => readable_caseOf selector inner) readableBody_nil
    (fun _ _ first rest => readableBody_cons first rest) readableArms_nil
    (fun label _ _ inner rest => readableArms_cons label inner rest)).1 body

theorem layoutText_blockLines (depth : Nat) (terminator : String)
    (body : List (Statement String String)) :
    layoutText (blockLines depth terminator body) = layoutText [⟨depth, "begin"⟩]
      ++ layoutText (Statement.linesAll (depth + 1) body)
      ++ layoutText [⟨depth, "end" ++ terminator⟩] := by
  rw [blockLines, layoutText_append, layoutText_append]

/-- **Bodies with the same text** consist of the same statements, apart from case statements without
arms. So the text of a conditional statement that is all of the else branch of another is never the
text of anything else: each else branch stays with its condition. -/
theorem block_text_unambiguous (depth : Nat) (terminator : String)
    {left right : List (Statement String String)}
    (left_single : ∀ text ∈ Statement.textsAll left, OneLine text)
    (right_single : ∀ text ∈ Statement.textsAll right, OneLine text)
    (same : layoutText (blockLines depth terminator left) =
      layoutText (blockLines depth terminator right)) :
    Statement.prunedAll left = Statement.prunedAll right ∧
      ∀ outer inner first second third, left = [.ifElse outer first [.ifElse inner second third]] →
        Statement.prunedAll right = [.ifElse outer (Statement.prunedAll first)
          [.ifElse inner (Statement.prunedAll second) (Statement.prunedAll third)]] := by
  have bodies : Statement.prunedAll left = Statement.prunedAll right := by
    rw [layoutText_blockLines, layoutText_blockLines, String.append_left_inj,
      String.append_right_inj] at same
    exact readableBody left (depth + 1) right (contents_eq_of_layoutText_eq
      (linesAll_oneLine left_single _) (linesAll_oneLine right_single _) same)
  refine ⟨bodies, ?_⟩
  rintro outer inner first second third rfl
  rw [← bodies]
  simp [Statement.prunedAll, Statement.pruned, Statement.isArmless]

/-- Codes that look like words of the language or like deeper lines, and case statements without arms
on both sides. -/
theorem folded_block_unambiguous :
    layoutText (blockLines 1 ";" [.ifElse "A" [.simple "end"]
        [.ifElse "B" [.simple "  begin"] [.caseOf "X" [], .simple "else"]]]) =
      layoutText (blockLines 1 ";" [.caseOf "Y" [], .ifElse "A" [.simple "end", .caseOf "Z" []]
        [.ifElse "B" [.simple "  begin"] [.simple "else"]]]) ∧
    Statement.prunedAll [.caseOf "Y" [], .ifElse "A" [.simple "end", .caseOf "Z" []]
        [.ifElse "B" [.simple "  begin"] [.simple "else"]]] =
      [.ifElse "A" (Statement.prunedAll [.simple "end"])
        [.ifElse "B" (Statement.prunedAll [.simple "  begin"])
          (Statement.prunedAll [.caseOf "X" [], .simple "else"])]] := by
  have same : blockLines 1 ";" [.ifElse "A" [.simple "end"]
        [.ifElse "B" [.simple "  begin"] [.caseOf "X" [], .simple "else"]]] =
      blockLines 1 ";" [.caseOf "Y" [], .ifElse "A" [.simple "end", .caseOf "Z" []]
        [.ifElse "B" [.simple "  begin"] [.simple "else"]]] := by
    simp [blockLines, Statement.linesAll, Statement.lines]
  refine ⟨congrArg layoutText same, (block_text_unambiguous 1 ";" ?_ ?_
    (congrArg layoutText same)).2 "A" "B" [.simple "end"] [.simple "  begin"]
      [.caseOf "X" [], .simple "else"] rfl⟩
  · decide
  · decide

end ProtoPascal.Pascal
