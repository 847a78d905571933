import SlotLang.Proofs.LabelResolution
import SlotLang.Proofs.NodeSources

/-!
# Errors that no program text leads to

Some errors tell of a mistake in the compiler and not in a program: lowering has no code
for binary expressions, and assembling refuses labels that are not marked exactly once.
No text leads to them.  The trees that are read from tokens have no binary expressions, and
lowering marks the labels of a loop once each, as long as labels can be numbered.

* `CompileError.Internal` — the errors that are not about the program.
* `Statement.Spelled` — the form of the trees that are read from tokens.
* `Statement.Refused.exists_binary` — only a binary expression has no code.
* `compile_error_not_internal` — program text never leads to an internal error.
-/

namespace SlotLang

/-- The error is not about the program: a construct without code, or a label misused. -/
def CompileError.Internal : CompileError → Prop
  | lowering (.unsupported _ _) => True
  | assembly _ => True
  | _ => False

/-! ## Trees that are read from tokens -/

/-- The expression is an operator applied to operands. -/
def Expression.IsBinary : Expression → Prop
  | binary _ _ _ _ => True
  | _ => False

namespace Statement

/-- The statement is made up of two. -/
def IsSequence : Statement → Prop
  | sequence _ _ _ => True
  | _ => False

/-- No expression is binary, and no sequence has a sequence for its first part. -/
structure Spelled (program : Statement) : Prop where
  expressions : ∀ value ∈ program.expressions, ¬ value.IsBinary
  nodes : ∀ first second span, sequence first second span ∈ program.nodes → ¬ first.IsSequence

end Statement

theorem Denotes.not_isBinary {kind : TokenKind} {value : Expression} (hvalue : Denotes kind value) :
    ∀ node ∈ value.nodes, ¬ node.IsBinary := by
  rw [hvalue.nodes_eq]
  cases hvalue <;> simp [Expression.IsBinary]

theorem Derives.not_isSequence {kinds : List TokenKind} {statement : Statement}
    (hderives : Derives .simple kinds statement) : ¬ statement.IsSequence := by
  cases hderives <;> exact id

/-- What the grammar derives has that form. -/
theorem Derives.spelled {phrase : Phrase} {kinds : List TokenKind} {statement : Statement}
    (hderives : Derives phrase kinds statement) : statement.Spelled := by
  induction hderives with
  | print span hvalue => exact ⟨hvalue.not_isBinary, by simp [Statement.nodes]⟩
  | declare span hvalue => exact ⟨hvalue.not_isBinary, by simp [Statement.nodes]⟩
  | readInt name span => exact ⟨by simp [Statement.expressions], by simp [Statement.nodes]⟩
  | forLoop span hlower hupper hbody htrail ih =>
      refine ⟨?_, fun first second place hnode => ?_⟩
      · simp only [Statement.expressions, List.forall_mem_append]
        exact ⟨⟨hlower.not_isBinary, hupper.not_isBinary⟩, ih.expressions⟩
      · exact ih.nodes first second place (by simpa [Statement.nodes] using hnode)
  | assign span hname hvalue => exact ⟨hvalue.not_isBinary, by simp [Statement.nodes]⟩
  | single hsimple ih => exact ih
  | andThen span hfirst hsecond hend ihfirst ihsecond =>
      refine ⟨?_, fun first second place hnode => ?_⟩
      · simp only [Statement.expressions, List.forall_mem_append]
        exact ⟨ihfirst.expressions, ihsecond.expressions⟩
      · simp only [Statement.nodes, List.mem_cons, List.mem_append] at hnode
        rcases hnode with hnode | hnode | hnode
        · cases hnode
          exact hfirst.not_isSequence
        · exact ihfirst.nodes first second place hnode
        · exact ihsecond.nodes first second place hnode

theorem Statement.spelled_of_ofTokens {tokens : List Token} {program : Statement}
    (hprogram : Statement.ofTokens tokens = .ok program) : program.Spelled := by
  obtain ⟨body, trail, hbody, -, -⟩ := ofStream_spells hprogram
  exact hbody.spelled

theorem Statement.spelled_of_ofSource {source : String} {program : Statement}
    (hprogram : Statement.ofSource source = .ok program) : program.Spelled := by
  obtain ⟨tokens, -, hparse⟩ := bind_eq_ok.mp hprogram
  exact spelled_of_ofTokens (mapError_eq_ok.mp hparse)

/-! ## Constructs without code -/

theorem Expression.Untypable.isBinary {env : TypeEnv} {use construct : Construct}
    {value : Expression} {span : Span}
    (huntypable : value.Untypable env use (.unsupported construct span)) :
    ∃ node ∈ value.nodes, node.IsBinary := by
  cases huntypable with
  | binary operator left right _ =>
      exact ⟨.binary operator left right span, by simp [Expression.nodes], trivial⟩

/-- If lowering has no code for a construct, some expression of the program is binary. -/
theorem Statement.Refused.exists_binary {env : TypeEnv} {program : Statement}
    {error : LoweringError} (hrefused : Refused env program error) {construct : Construct}
    {span : Span} (herror : error = .unsupported construct span) :
    ∃ value ∈ program.expressions, value.IsBinary := by
  induction hrefused with
  | first _ hfirst ih =>
      obtain ⟨value, hvalue, hbinary⟩ := ih herror
      exact ⟨value, List.mem_append_left _ hvalue, hbinary⟩
  | second _ hfirst hsecond ih =>
      obtain ⟨value, hvalue, hbinary⟩ := ih herror
      exact ⟨value, List.mem_append_right _ hvalue, hbinary⟩
  | declare _ hvalue => subst herror; exact hvalue.isBinary
  | assignValue _ hvalue => subst herror; exact hvalue.isBinary
  | assignName _ hvalue hname => subst herror; cases hname
  | print _ hvalue => subst herror; exact hvalue.isBinary
  | readInt _ hname => subst herror; cases hname
  | lower _ hlower =>
      subst herror
      obtain ⟨value, hvalue, hbinary⟩ := hlower.isBinary
      exact ⟨value, by simp [expressions, hvalue], hbinary⟩
  | index _ hlower hindex => subst herror; cases hindex
  | body _ hlower hindex hbody ih =>
      obtain ⟨value, hvalue, hbinary⟩ := ih herror
      exact ⟨value, List.mem_append_right _ hvalue, hbinary⟩
  | counted _ hlower hindex hbody hcounted => subst herror; cases hcounted
  | upper _ hlower hindex hbody hcounted hupper =>
      subst herror
      obtain ⟨value, hvalue, hbinary⟩ := hupper.isBinary
      exact ⟨value, by simp [expressions, hvalue], hbinary⟩
  | upperString => cases herror

/-! ## Labels that are misused -/

/-- The numbers of labels at the ends of a nesting differ by the labels that are defined
in it. -/
theorem Directives.Nested.labelCount_eq {n m : Nat} {directives : List Directive}
    (hnested : Nested n directives m) : n + labelCount directives = m := by
  have hplainCount : ∀ {test : List Directive}, (∀ directive ∈ test, directive.Plain) →
      labelCount test = 0 := by
    intro test htest
    exact List.count_eq_zero.mpr fun hmem => htest _ hmem
  induction hnested with
  | nil => rfl
  | plain n hplain => rw [hplainCount (by simpa using hplain), Nat.add_zero]
  | append _ _ ihfirst ihsecond => rw [labelCount_append, ← ihsecond, ← ihfirst, Nat.add_assoc]
  | loop _ htest ih =>
      simp only [labelCount_append, hplainCount htest, ← ih]
      simp only [labelCount, List.count_cons, List.count_nil]
      simp
      omega

/-- A program that does not compile was refused by the typing rules, as long as the labels
that it defines can be numbered. -/
theorem Statement.refused_of_compile {program : Statement} {name : String} {error : CompileError}
    (hlabels : Directives.labelCount program.lower.directives ≤ UInt32.size)
    (herror : program.compile name = .error error) :
    ∃ reason, error = .lowering reason ∧ Refused .empty program reason := by
  have hobeys := program.obeys_emission (show Scope.empty.env = .empty from rfl)
  rcases program.compile_stages name with
    ⟨directives, reason, hemission, hcompile⟩ | ⟨directives, scope, hemission, hcompile⟩
  · rw [hcompile] at herror
    cases herror
    exact ⟨reason, rfl, (hobeys.error reason).mp (by rw [hemission])⟩
  · obtain ⟨-, hnested⟩ := program.nests_emission (n := 0) rfl _ _ hemission
    have hcount := hnested.labelCount_eq
    have hdirectives : program.lower.directives = directives := by rw [lower, hemission]; rfl
    rw [hdirectives] at hlabels
    obtain ⟨m, hassemble⟩ := exists_assemble hemission (by omega) name entryPoint
    rw [hcompile, hassemble] at herror
    cases herror

/-! ## Program text -/

/-- The first two stages have errors of their own. -/
theorem Statement.not_internal_of_ofSource {source : String} {error : CompileError}
    (herror : Statement.ofSource source = .error error) : ¬ error.Internal := by
  obtain hscan | ⟨tokens, -, hparse⟩ := bind_eq_error.mp herror
  · obtain ⟨reason, -, rfl⟩ := mapError_eq_error.mp hscan
    exact id
  · obtain ⟨reason, -, rfl⟩ := mapError_eq_error.mp hparse
    exact id

/-- Program text never leads to an internal error, as long as the labels that it defines can
be numbered; and whatever tokens a program is read from, it has no binary expression and
no sequence in the first place of another. -/
theorem compile_error_not_internal :
    (∀ source, (∀ program, Statement.ofSource source = .ok program →
        Directives.labelCount program.lower.directives ≤ UInt32.size) →
      ∀ name error, compile source name = .error error → ¬ error.Internal) ∧
    ∀ tokens program, Statement.ofTokens tokens = .ok program → program.Spelled := by
  refine ⟨?_, fun tokens program hprogram => Statement.spelled_of_ofTokens hprogram⟩
  intro source hlabels name error herror hinternal
  obtain hsource | ⟨program, hprogram, hcompile⟩ := bind_eq_error.mp herror
  · exact Statement.not_internal_of_ofSource hsource hinternal
  · obtain ⟨reason, rfl, hrefused⟩ :=
      Statement.refused_of_compile (hlabels program hprogram) hcompile
    cases reason with
    | unsupported construct span =>
        obtain ⟨value, hvalue, hbinary⟩ := hrefused.exists_binary rfl
        exact (Statement.spelled_of_ofSource hprogram).expressions value hvalue hbinary
    | _ => exact hinternal

/-- Two loops, a semicolon before the end of the inner one, and a name that is not
declared. -/
def nestedSource : String := "for i = 0 to 2 do for j = i to i do print j; end; k = j end"

/-- The program that the text spells. -/
def Statement.nestedLoops : Statement :=
  .forLoop "i" (.integer 0 ⟨8, 9⟩) (.integer 2 ⟨13, 14⟩)
    (.sequence
      (.forLoop "j" (.name "i" ⟨26, 27⟩) (.name "i" ⟨31, 32⟩)
        (.print (.name "j" ⟨42, 43⟩) ⟨36, 43⟩) ⟨18, 48⟩)
      (.assign "k" (.name "j" ⟨54, 55⟩) ⟨50, 55⟩) ⟨18, 55⟩) ⟨0, 59⟩

/-- The four labels of the loops have their numbers, and the text fails with an error about
itself. -/
theorem nestedSource_error_not_internal :
    (∀ program, Statement.ofSource nestedSource = .ok program →
        Directives.labelCount program.lower.directives ≤ UInt32.size) ∧
      Statement.nestedLoops.Spelled ∧
      ∃ error, compile nestedSource "test" = .error error ∧ ¬ error.Internal := by
  have hparse : Statement.ofSource nestedSource = .ok Statement.nestedLoops :=
    eq_ok_of_toOption (by decide +kernel)
  have hlabels : ∀ program, Statement.ofSource nestedSource = .ok program →
      Directives.labelCount program.lower.directives ≤ UInt32.size := by
    intro program hprogram
    rw [hparse] at hprogram
    cases hprogram
    decide +kernel
  have herror : compile nestedSource "test" =
      .error (.lowering (.undeclared "k" ⟨54, 55⟩)) := by
    rw [compile, hparse]
    rfl
  obtain ⟨tokens, -, htokens⟩ := bind_eq_ok.mp hparse
  obtain ⟨herrors, htrees⟩ := compile_error_not_internal
  exact ⟨hlabels, htrees tokens _ (mapError_eq_ok.mp htokens), _, herror,
    herrors nestedSource hlabels _ _ herror⟩

end SlotLang
