import SlotLang.Proofs.ErrorPlaces

/-!
# What the report of an undeclared name underlines

A name is looked up where an expression consists of it, where a line is read into it, and
where a value is assigned to it.  In the first case the label of the report stands on the
name and in the second on the whole statement, so the name is under it.  In the third the
label stands on the value.  The value has a type although the name is not declared, so it is
not the name itself, and the name is not under the label.

The index of a loop is declared by the loop, and what is declared stays so.  Loops therefore
report their bounds and their bodies only.

* `Span.HasWord` — the text under a span contains a word.
* `Statement.Typed.declared` — names stay declared.
* `Statement.LooksUp` — the places where a name is looked up.
* `Statement.Refused.looksUp` — an undeclared name is reported where it is looked up.
* `compile_undeclared_label` — when the name is under the label.
-/

namespace SlotLang

/-! ## Words under a span -/

/-- The text under the span, scanned by itself, has the word among its tokens. -/
def Span.HasWord (span : Span) (source name : String) : Prop :=
  ∃ tokens, Token.scan (span.text source) = .ok tokens ∧
    ∃ token ∈ tokens, token.kind = .word name

section

variable {source : String} {tokens : List Token}

/-- Under a token there is a word if and only if the token is that word. -/
theorem Token.hasWord_iff {token : Token} (htiles : Tiles 0 source.toList tokens)
    (htoken : token ∈ tokens) {name : String} :
    token.span.HasWord source name ↔ token.kind = .word name := by
  obtain ⟨-, hscan⟩ := Token.scan_text htiles htoken
  constructor
  · rintro ⟨found, hfound, word, hword, hkind⟩
    rw [hscan] at hfound
    cases hfound
    rcases List.mem_pair.mp hword with rfl | rfl
    · exact hkind
    · cases hkind
  · intro hkind
    exact ⟨_, hscan, _, List.mem_cons_self, hkind⟩

/-- Under a statement there are the words that it is built from. -/
theorem Builds.hasWord {run : List Token} {node : Statement}
    (htiles : Tiles 0 source.toList tokens) (hrun : run <:+: tokens)
    (hbuilds : Builds .sequence run node) {token : Token} (htoken : token ∈ run) {name : String}
    (hkind : token.kind = .word name) : node.span.HasWord source name := by
  obtain ⟨low, high, horder⟩ := htiles.inOrder.of_infix hrun
  obtain ⟨first, rest, rfl, hspan⟩ := hbuilds.span_eq horder
  obtain ⟨-, hscan, -⟩ := Token.scan_part htiles hrun hspan
  refine ⟨_, hscan, token.mapSpan (Span.shiftLeft node.span.start), ?_, hkind⟩
  exact List.mem_append_left _ (List.mem_map_of_mem htoken)

/-- A statement that reads a line into a name is built from the keyword and the name. -/
theorem Builds.exists_word_of_readInt {run : List Token} {name : String} {span : Span}
    (hbuilds : Builds .sequence run (.readInt name span)) :
    ∃ token ∈ run, token.kind = .word name := by
  cases hbuilds with
  | single hsimple =>
      cases hsimple with
      | readInt name start place => exact ⟨⟨.word name, place⟩, by simp, rfl⟩

end

/-! ## Declared names -/

theorem TypeEnv.bind_ne_none {env : TypeEnv} {name : String} (hname : env name ≠ none)
    (other : String) (type : ValueType) : env.bind other type name ≠ none := by
  unfold bind
  split
  · simp
  · exact hname

theorem TypeEnv.withIndex_ne_none {env : TypeEnv} {name : String} (hname : env name ≠ none)
    (index : String) : env.withIndex index name ≠ none := by
  cases hindex : env index with
  | some type => simpa only [withIndex, hindex] using hname
  | none => simpa only [withIndex, hindex] using bind_ne_none hname index .int

theorem TypeEnv.withIndex_self_ne_none (env : TypeEnv) (index : String) :
    env.withIndex index index ≠ none := by
  cases hindex : env index with
  | some type => simp [withIndex, hindex]
  | none => simp [withIndex, hindex, bind]

/-- A statement does not take back a declaration. -/
theorem Statement.Typed.declared {env after : TypeEnv} {statement : Statement}
    (htyped : Typed env statement after) {name : String} (hname : env name ≠ none) :
    after name ≠ none := by
  induction htyped with
  | sequence _ _ _ ihfirst ihsecond => exact ihsecond (ihfirst hname)
  | declare _ _ => exact TypeEnv.bind_ne_none hname _ _
  | assign _ _ _ => exact hname
  | print _ _ => exact hname
  | readInt _ _ => exact hname
  | @forLoop _ _ index _ _ _ _ _ _ _ _ _ _ ihbody =>
      exact ihbody (TypeEnv.withIndex_ne_none hname index)

/-! ## Where a name is looked up -/

/-- The program looks the name up, and the span is the one that a report of it would have. -/
inductive Statement.LooksUp (program : Statement) (name : String) (span : Span) : Prop
  | expression (hvalue : .name name span ∈ program.expressions)
  | readInt (hnode : .readInt name span ∈ program.nodes)
  | assign {value : Expression} {place : Span} (hnode : .assign name value place ∈ program.nodes)
      (hspan : value.span = span) (hvalue : ∀ other, value ≠ .name name other)

namespace Statement

variable {program : Statement} {name : String} {span : Span}

theorem LooksUp.mono {part : Statement} (hlooks : part.LooksUp name span)
    (hnodes : part.nodes ⊆ program.nodes) (hexpressions : part.expressions ⊆ program.expressions) :
    program.LooksUp name span := by
  cases hlooks with
  | expression hvalue => exact .expression (hexpressions hvalue)
  | readInt hnode => exact .readInt (hnodes hnode)
  | assign hnode hspan hvalue => exact .assign (hnodes hnode) hspan hvalue

/-- The value of an assignment is an expression of the program. -/
theorem mem_expressions_of_assign {value : Expression} {place : Span}
    (hnode : .assign name value place ∈ program.nodes) : value ∈ program.expressions := by
  induction program with
  | sequence first second _ ihfirst ihsecond =>
      simp only [nodes, List.mem_cons, reduceCtorEq, false_or, List.mem_append] at hnode
      rcases hnode with hnode | hnode
      · exact List.mem_append_left _ (ihfirst hnode)
      · exact List.mem_append_right _ (ihsecond hnode)
  | assign =>
      cases List.mem_singleton.mp hnode
      exact Expression.mem_nodes_self value
  | forLoop _ _ _ _ _ ih =>
      simp only [nodes, List.mem_cons, reduceCtorEq, false_or] at hnode
      exact List.mem_append_right _ (ih hnode)
  | _ => cases List.mem_singleton.mp hnode

end Statement

/-- An expression without a type is reported as undeclared only if it is the name. -/
theorem Expression.Untypable.eq_name {env : TypeEnv} {use : Construct} {value : Expression}
    {name : String} {span : Span} (huntypable : value.Untypable env use (.undeclared name span)) :
    value = .name name span := by
  cases huntypable
  rfl

theorem TypeEnv.Denies.undeclared_iff {env : TypeEnv} {name other : String} {type : ValueType}
    {place span : Span} :
    env.Denies name type place (.undeclared other span) ↔
      env name = none ∧ other = name ∧ span = place := by
  constructor
  · rintro ⟨hname⟩
    exact ⟨hname, rfl, rfl⟩
  · rintro ⟨hname, rfl, rfl⟩
    exact .undeclared hname

/-- An undeclared name is reported where the program looks it up. -/
theorem Statement.Refused.looksUp {env : TypeEnv} {program : Statement} {name : String}
    {span : Span} (hrefused : Refused env program (.undeclared name span)) :
    program.LooksUp name span := by
  generalize herror : LoweringError.undeclared name span = error at hrefused
  induction hrefused with
  | first _ _ ih =>
      exact (ih herror).mono (List.subset_cons_of_subset _ (List.subset_append_left _ _))
        (List.subset_append_left _ _)
  | second _ _ _ ih =>
      exact (ih herror).mono (List.subset_cons_of_subset _ (List.subset_append_right _ _))
        (List.subset_append_right _ _)
  | declare _ hvalue =>
      subst herror
      obtain rfl := hvalue.eq_name
      exact .expression (by simp [expressions, Expression.nodes])
  | assignValue _ hvalue =>
      subst herror
      obtain rfl := hvalue.eq_name
      exact .expression (by simp [expressions, Expression.nodes])
  | assignName _ hvalue hname =>
      subst herror
      obtain ⟨hnone, rfl, hspan⟩ := TypeEnv.Denies.undeclared_iff.mp hname
      refine .assign List.mem_cons_self hspan.symm ?_
      -- A value that is the name itself would have no type either.
      rintro other rfl
      cases hvalue with
      | name _ hsome => cases hnone.symm.trans hsome
  | print _ hvalue =>
      subst herror
      obtain rfl := hvalue.eq_name
      exact .expression (by simp [expressions, Expression.nodes])
  | readInt _ hname =>
      subst herror
      obtain ⟨-, rfl, rfl⟩ := TypeEnv.Denies.undeclared_iff.mp hname
      exact .readInt List.mem_cons_self
  | lower _ hlower =>
      subst herror
      obtain rfl := hlower.eq_name
      exact .expression (by simp [expressions, Expression.nodes])
  | @index env index _ _ _ _ _ _ _ hindex =>
      subst herror
      obtain ⟨hnone, -, -⟩ := TypeEnv.Denies.undeclared_iff.mp hindex
      exact absurd hnone (env.withIndex_self_ne_none index)
  | body _ _ _ _ ih =>
      exact (ih herror).mono (List.subset_cons_self _ _) (List.subset_append_right _ _)
  | @counted env _ index _ _ _ _ _ _ _ _ hbody hcounted =>
      subst herror
      obtain ⟨hnone, -, -⟩ := TypeEnv.Denies.undeclared_iff.mp hcounted
      exact absurd hnone (hbody.declared (env.withIndex_self_ne_none index))
  | upper _ _ _ _ _ hupper =>
      subst herror
      obtain rfl := hupper.eq_name
      exact .expression (by simp [expressions, Expression.nodes])
  | upperString => cases herror

/-! ## Reports -/

/-- The word of the name is under the place where the name is looked up, unless the place is
that of another value which is assigned to the name. -/
theorem Statement.LooksUp.hasWord_iff {source : String} {program : Statement} {name : String}
    {span : Span} (hlooks : program.LooksUp name span)
    (hsource : Statement.ofSource source = .ok program) :
    span.HasWord source name ↔
      ∀ value place, .assign name value place ∈ program.nodes → value.span = span →
        ∃ other, value = .name name other := by
  obtain ⟨tokens, front, htiles, hfront, hbuilds⟩ := Statement.exists_builds_of_ofSource hsource
  constructor
  · rintro hword value place hnode rfl
    obtain ⟨kind, hkind, htoken⟩ :=
      hbuilds.exists_token value (mem_expressions_of_assign hnode)
    have hkind' : kind = .word name :=
      (Token.hasWord_iff htiles (hfront.subset htoken)).mp hword
    subst hkind'
    cases hkind with
    | word name other => exact ⟨other, rfl⟩
  · intro hassigned
    cases hlooks with
    | expression hvalue =>
        obtain ⟨kind, hkind, htoken⟩ := hbuilds.exists_token _ hvalue
        cases hkind
        exact (Token.hasWord_iff htiles (hfront.subset htoken)).mpr rfl
    | readInt hnode =>
        obtain ⟨run, hrun, hread⟩ := hbuilds.exists_run _ hnode
        obtain ⟨token, htoken, hkind⟩ := hread.exists_word_of_readInt
        exact hread.hasWord htiles (hrun.trans hfront) htoken hkind
    | assign hnode hspan hvalue =>
        obtain ⟨other, hother⟩ := hassigned _ _ hnode hspan
        exact absurd hother (hvalue other)

/-- A source that is refused for an undeclared name spells a program that looks it up. -/
theorem exists_looksUp_of_compile {source name missing : String} {span : Span}
    (herror : compile source name = .error (.lowering (.undeclared missing span))) :
    ∃ program, Statement.ofSource source = .ok program ∧ program.LooksUp missing span := by
  obtain hsource | ⟨program, hsource, hcompile⟩ := bind_eq_error.mp herror
  · -- The first two stages have errors of their own.
    obtain hscan | ⟨tokens, -, hparse⟩ := bind_eq_error.mp hsource
    · obtain ⟨reason, -, hother⟩ := mapError_eq_error.mp hscan
      cases hother
    · obtain ⟨reason, -, hother⟩ := mapError_eq_error.mp hparse
      cases hother
  · obtain ⟨reason, heq, hrefused⟩ | ⟨reason, heq⟩ := Statement.compile_eq_error hcompile
    · cases heq
      exact ⟨program, hsource, hrefused.looksUp⟩
    · cases heq

/-- The report of an undeclared name has one label.  It stands on an expression that is the
name, on a statement that reads a line into the name, or on a value that is assigned to the
name and is not the name itself.  The text under the label contains the name as a word, unless
it is such a value. -/
theorem compile_undeclared_label {source name missing : String} {span : Span}
    (herror : compile source name = .error (.lowering (.undeclared missing span))) :
    ∃ program label, Statement.ofSource source = .ok program ∧
      (CompileError.lowering (.undeclared missing span)).diagnostic.labels = [label] ∧
      label.text = "not declared" ∧ program.LooksUp missing label.span ∧
      (label.span.HasWord source missing ↔
        ∀ value place, .assign missing value place ∈ program.nodes → value.span = label.span →
          ∃ other, value = .name missing other) := by
  obtain ⟨program, hsource, hlooks⟩ := exists_looksUp_of_compile herror
  refine ⟨program, span.label "not declared", hsource, rfl, rfl, ?_⟩
  have hspan : (span.label "not declared").span = span := by
    rcases CompileError.place herror rfl with ⟨hend, -⟩ | ⟨-, hmarks⟩
    · exact hend.elim
    · exact Span.span_label (Nat.le_of_lt hmarks.lt) _
  rw [hspan]
  exact ⟨hlooks, hlooks.hasWord_iff hsource⟩

/-- A line is read into an undeclared name of two bytes, after an assignment. -/
def unreadableSource : String := "var a = 1; for i = 0 to 2 do a = i; read_int é end"

/-- The program that the text spells. -/
def Statement.unreadable : Statement :=
  .sequence (.declare "a" (.integer 1 ⟨8, 9⟩) ⟨0, 9⟩)
    (.forLoop "i" (.integer 0 ⟨19, 20⟩) (.integer 2 ⟨24, 25⟩)
      (.sequence (.assign "a" (.name "i" ⟨33, 34⟩) ⟨29, 34⟩) (.readInt "é" ⟨36, 47⟩) ⟨29, 47⟩)
      ⟨11, 51⟩) ⟨0, 51⟩

/-- The label stands on the statement, and the name is under it. -/
theorem unreadable_undeclared_label :
    compile unreadableSource "test" = .error (.lowering (.undeclared "é" ⟨36, 47⟩)) ∧
      ∃ label, (CompileError.lowering (.undeclared "é" ⟨36, 47⟩)).diagnostic.labels = [label] ∧
        label.span = ⟨36, 47⟩ ∧ label.span.HasWord unreadableSource "é" := by
  have hparse : Statement.ofSource unreadableSource = .ok Statement.unreadable :=
    eq_ok_of_toOption (by decide +kernel)
  have herror : compile unreadableSource "test" =
      .error (.lowering (.undeclared "é" ⟨36, 47⟩)) := by
    rw [compile, hparse]
    rfl
  obtain ⟨program, label, hsource, hlabels, -, -, hword⟩ := compile_undeclared_label herror
  cases hparse.symm.trans hsource
  cases hlabels
  refine ⟨herror, _, rfl, rfl, hword.mpr ?_⟩
  intro value place hnode
  simp [Statement.unreadable, Statement.nodes] at hnode

/-- The label need not stand on the name: in `x = 5` it stands on the number. -/
theorem undeclared_label_misses_name :
    ¬ ∀ (source name missing : String) (span : Span),
      compile source name = .error (.lowering (.undeclared missing span)) →
      ∀ label ∈ (CompileError.lowering (.undeclared missing span)).diagnostic.labels,
        label.span.HasWord source missing := by
  intro hall
  have hparse : Statement.ofSource "x = 5" = .ok (.assign "x" (.integer 5 ⟨4, 5⟩) ⟨0, 5⟩) :=
    eq_ok_of_toOption (by decide +kernel)
  have herror : compile "x = 5" "test" = .error (.lowering (.undeclared "x" ⟨4, 5⟩)) := by
    rw [compile, hparse]
    rfl
  have hscan : Token.scan (Span.text ⟨4, 5⟩ "x = 5") =
      .ok [⟨.integer 5, ⟨0, 1⟩⟩, ⟨.eof, ⟨1, 1⟩⟩] := eq_ok_of_toOption (by decide +kernel)
  obtain ⟨tokens, hfound, token, htoken, hkind⟩ :=
    hall _ _ _ _ herror _ (List.mem_singleton_self _)
  cases hscan.symm.trans hfound
  rcases List.mem_pair.mp htoken with rfl | rfl
  · cases hkind
  · cases hkind

end SlotLang
