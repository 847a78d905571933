import SlotLang.Proofs.LexicalErrors
import SlotLang.Proofs.NodeSources
import SlotLang.Proofs.ViablePrefixes

/-!
# Errors point into the text

Every error that is about a program names a place of its text.  The place of a lexical error
is a piece of the text that the lexer was about to cut off; that of a parse error is a token
or the end of the text; that of a lowering error is a node of the tree, which was read from
consecutive tokens.  So the label of a diagnostic has characters of the source under it, and
both its ends lie between characters, whatever characters the source has.  Only where the
text ends too early the label is empty, and stands at the end.

* `Span.Marks` — a span has characters of the source under it.
* `exists_piece_of_scanFrom` — the place of a lexical error.
* `Statement.ofTokens_eq_error` — the place of a parse error.
* `Statement.Refused.span_mem` — the place of a lowering error.
* `compile_error_label_marks` — the label of every error of a source.
-/

namespace SlotLang

/-! ## Places -/

/-- The place that a lexical error is about. -/
def LexError.span : LexError → Span
  | unrecognized _ span => span
  | unterminated span => span
  | overflow _ span => span

/-- The place that a parse error is about. -/
def ParseError.span : ParseError → Span
  | unexpected _ _ span => span
  | unexpectedEnd _ span => span
  | trailing _ span => span

/-- The place that a lowering error is about. -/
def LoweringError.span : LoweringError → Span
  | undeclared _ span => span
  | typeMismatch _ _ _ span => span
  | noCoercion _ _ span => span
  | unsupported _ span => span

/-- The place that an error is about, if it is about one. -/
def CompileError.span? : CompileError → Option Span
  | lexical error => some error.span
  | parse error => some error.span
  | lowering error => some error.span
  | assembly _ => none

/-- The text ended where something was due. -/
def CompileError.AtEnd : CompileError → Prop
  | parse (.unexpectedEnd _ _) => True
  | _ => False

/-- The bytes under a label. -/
def Label.span (label : Label) : Span where
  start := label.offset
  stop := label.offset + label.length

/-- The span has characters of the source under it, and no part of a character. -/
structure Span.Marks (span : Span) (source : String) : Prop where
  lt : span.start < span.stop
  boundaries : span.OnBoundaries source

/-- A diagnostic has one label, on the place of its error, or none. -/
theorem CompileError.labels_diagnostic (error : CompileError) :
    (∃ span remark, error.span? = some span ∧ error.diagnostic.labels = [span.label remark]) ∨
      (∃ reason, error = .assembly reason) ∧ error.diagnostic.labels = [] := by
  cases error with
  | lexical error => cases error <;> exact .inl ⟨_, _, rfl, rfl⟩
  | parse error => cases error <;> exact .inl ⟨_, _, rfl, rfl⟩
  | lowering error => cases error <;> exact .inl ⟨_, _, rfl, rfl⟩
  | assembly error => cases error <;> exact .inr ⟨⟨_, rfl⟩, rfl⟩

theorem Span.span_label {span : Span} (hle : span.start ≤ span.stop) (remark : String) :
    (span.label remark).span = span := by
  rw [Label.span, Span.label, Span.length, Nat.add_sub_cancel' hle]

section

variable {source : String}

/-- A piece of the source has characters under it. -/
theorem Span.marks_of_split {before piece after : List Char}
    (hsplit : source.toList = before ++ (piece ++ after)) (hpiece : piece ≠ []) :
    Span.Marks ⟨Text.byteLength before, Text.byteLength before + Text.byteLength piece⟩ source := by
  have hpos := Text.byteLength_pos hpiece
  have hsplit' : source.toList = (before ++ piece) ++ after := by rw [hsplit, List.append_assoc]
  refine ⟨by simp only; omega, isValid_of_split hsplit, ?_⟩
  rw [← Text.byteLength_append]
  exact isValid_of_split hsplit'

theorem Span.OnBoundaries.stop_le {span : Span} (hspan : span.OnBoundaries source) :
    span.stop ≤ source.utf8ByteSize :=
  hspan.2.le_rawEndPos

theorem Span.onBoundaries_end : (Span.empty source.utf8ByteSize).OnBoundaries source :=
  ⟨String.Pos.Raw.isValid_rawEndPos, String.Pos.Raw.isValid_rawEndPos⟩

/-! ## Lexical errors -/

theorem LexError.AtFront.span_eq {offset : Nat} {text : List Char} {error : LexError}
    (hfront : error.AtFront offset text) :
    error.span = ⟨offset, offset + Text.byteLength error.mistake⟩ := by
  cases hfront with
  | unrecognized => rfl
  | unterminated => rfl
  | overflow => rw [LexError.span, LexError.mistake, String.toList_ofList]

/-- The lexer fails at a piece of the text. -/
theorem exists_piece_of_scanFrom {offset : Nat} {text : List Char} {error : LexError}
    (herror : scanFrom offset text = .error error) :
    ∃ before piece after, text = before ++ (piece ++ after) ∧ piece ≠ [] ∧
      error.span = ⟨offset + Text.byteLength before,
        offset + Text.byteLength before + Text.byteLength piece⟩ := by
  obtain ⟨before, rest, tokens, rfl, -, -, hfront⟩ := scanFrom_eq_error_iff.mp herror
  obtain ⟨after, rfl⟩ := hfront.mistake_prefix
  exact ⟨before, error.mistake, after, rfl, hfront.mistake_ne_nil, hfront.span_eq⟩

theorem LexError.marks_of_scan {error : LexError} (herror : Token.scan source = .error error) :
    error.span.Marks source := by
  obtain ⟨before, piece, after, hsplit, hne, hspan⟩ := exists_piece_of_scanFrom herror
  rw [Nat.zero_add] at hspan
  rw [hspan]
  exact Span.marks_of_split hsplit hne

/-! ## Parse errors -/

/-- The tokens of a text and its end are a stream. -/
theorem TokenStream.cut_append_eof {tokens : List Token}
    (heof : ∀ token ∈ tokens, token.kind ≠ .eof) (place : Span) (last : Nat) :
    TokenStream.cut last (tokens ++ [⟨.eof, place⟩]) = ⟨tokens, place⟩ := by
  induction tokens generalizing last with
  | nil => rfl
  | cons token others ih =>
      obtain ⟨htoken, hothers⟩ := List.forall_mem_cons.mp heof
      simp only [List.cons_append, cut, if_neg htoken, ih hothers]

/-- A parse error is about the end of the text or about one of the tokens before it. -/
theorem Statement.ofTokens_eq_error {tokens : List Token} {place : Span} {error : ParseError}
    (heof : ∀ token ∈ tokens, token.kind ≠ .eof)
    (herror : Statement.ofTokens (tokens ++ [⟨.eof, place⟩]) = .error error) :
    (∃ expected, error = .unexpectedEnd expected place) ∨
      ∃ token ∈ tokens, error.found? = some token ∧ error.span = token.span := by
  have hfail := Statement.ofStream_eq_error herror
  rw [TokenStream.ofList, TokenStream.cut_append_eof heof] at hfail
  rcases hfail with hfail | ⟨program, token, rest, hread, rfl⟩
  · obtain ⟨front, rest, expected, rfl, rfl, -⟩ := stopsAt_of_parseStatement hfail
    cases rest with
    | nil => exact .inl ⟨expected, rfl⟩
    | cons token rest => exact .inr ⟨token, by simp, rfl, rfl⟩
  · obtain ⟨front, trail, rfl, -⟩ := exists_front_of_parseStatement hread
    exact .inr ⟨token, by simp, rfl, rfl⟩

/-- A token has characters of the source under it. -/
theorem Tiles.marks {tokens : List Token} (htiles : Tiles 0 source.toList tokens) {token : Token}
    (htoken : token ∈ tokens) : token.span.Marks source := by
  obtain ⟨before, lexeme, after, hsplit, hstart, hstop, hwritten, -⟩ :=
    htiles.exists_split token htoken
  have hspan : token.span =
      ⟨Text.byteLength before, Text.byteLength before + Text.byteLength lexeme⟩ := by
    rw [Nat.zero_add] at hstart hstop
    rw [← hstop, ← hstart]
  rw [hspan]
  exact Span.marks_of_split hsplit hwritten.ne_nil

/-! ## Lowering errors -/

/-- The spans of the statements and expressions of a program. -/
def Statement.spans (program : Statement) : List Span :=
  program.nodes.map Statement.span ++ program.expressions.map Expression.span

theorem Statement.span_mem_spans (statement : Statement) : statement.span ∈ statement.spans := by
  have hnode : statement ∈ statement.nodes := by cases statement <;> simp [nodes]
  exact List.mem_append_left _ (List.mem_map_of_mem hnode)

theorem Expression.mem_nodes_self (value : Expression) : value ∈ value.nodes := by
  cases value <;> simp [nodes]

theorem Statement.span_mem_spans_of_expressions {program : Statement} {value : Expression}
    (hvalue : value ∈ program.expressions) : value.span ∈ program.spans :=
  List.mem_append_right _ (List.mem_map_of_mem hvalue)

theorem Statement.spans_subset {part whole : Statement} (hnodes : part.nodes ⊆ whole.nodes)
    (hexpressions : part.expressions ⊆ whole.expressions) : part.spans ⊆ whole.spans := by
  refine List.append_subset.mpr ⟨?_, ?_⟩
  · exact List.subset_append_of_subset_left _ (List.map_subset _ hnodes)
  · exact List.subset_append_of_subset_right _ (List.map_subset _ hexpressions)

theorem Expression.Untypable.span_eq {env : TypeEnv} {use : Construct} {value : Expression}
    {error : LoweringError} (huntypable : value.Untypable env use error) :
    error.span = value.span := by
  cases huntypable <;> rfl

theorem TypeEnv.Denies.span_eq {env : TypeEnv} {name : String} {type : ValueType} {span : Span}
    {error : LoweringError} (hdenies : env.Denies name type span error) : error.span = span := by
  cases hdenies <;> rfl

/-- A lowering error is about a statement or an expression of the program. -/
theorem Statement.Refused.span_mem {env : TypeEnv} {program : Statement} {error : LoweringError}
    (hrefused : Refused env program error) : error.span ∈ program.spans := by
  induction hrefused with
  | first _ hfirst ih =>
      exact spans_subset (List.subset_cons_of_subset _ (List.subset_append_left _ _))
        (List.subset_append_left _ _) ih
  | second _ hfirst hsecond ih =>
      exact spans_subset (List.subset_cons_of_subset _ (List.subset_append_right _ _))
        (List.subset_append_right _ _) ih
  | declare _ hvalue =>
      exact hvalue.span_eq ▸ span_mem_spans_of_expressions (Expression.mem_nodes_self _)
  | assignValue _ hvalue =>
      exact hvalue.span_eq ▸ span_mem_spans_of_expressions (Expression.mem_nodes_self _)
  | assignName _ hvalue hname =>
      exact hname.span_eq ▸ span_mem_spans_of_expressions (Expression.mem_nodes_self _)
  | print _ hvalue =>
      exact hvalue.span_eq ▸ span_mem_spans_of_expressions (Expression.mem_nodes_self _)
  | readInt _ hname => exact hname.span_eq ▸ span_mem_spans (.readInt _ _)
  | lower _ hlower =>
      refine hlower.span_eq ▸ span_mem_spans_of_expressions ?_
      simp [expressions, Expression.mem_nodes_self]
  | index _ hlower hindex =>
      refine hindex.span_eq ▸ span_mem_spans_of_expressions ?_
      simp [expressions, Expression.mem_nodes_self]
  | body _ hlower hindex hbody ih =>
      exact spans_subset (List.subset_cons_self _ _) (List.subset_append_right _ _) ih
  | counted _ hlower hindex hbody hcounted =>
      exact hcounted.span_eq ▸ span_mem_spans (.forLoop _ _ _ _ _)
  | upper _ hlower hindex hbody hcounted hupper =>
      refine hupper.span_eq ▸ span_mem_spans_of_expressions ?_
      simp [expressions, Expression.mem_nodes_self]
  | @upperString _ _ index lower upper body _ span hlower hindex hbody hcounted hupper =>
      have hmem : upper ∈ (forLoop index lower upper body span).expressions := by
        simp [expressions, Expression.mem_nodes_self]
      exact span_mem_spans_of_expressions hmem

/-- A statement that is built from consecutive tokens has characters of the source under it. -/
theorem Builds.marks {tokens run : List Token} {node : Statement}
    (htiles : Tiles 0 source.toList tokens) (hrun : run <:+: tokens)
    (hbuilds : Builds .sequence run node) : node.span.Marks source := by
  obtain ⟨low, high, horder⟩ := htiles.inOrder.of_infix hrun
  obtain ⟨first, rest, rfl, hspan⟩ := hbuilds.span_eq horder
  refine ⟨?_, (hbuilds.ofSource_text htiles hrun).1⟩
  obtain ⟨-, hlt, hrest⟩ := horder
  have hle := hrest.le_endOf.1
  rw [hspan]
  exact Nat.lt_of_lt_of_le hlt hle

/-- The nodes of a program that was read from a source have characters of the source under
them. -/
theorem Statement.marks_of_ofSource {program : Statement}
    (hsource : Statement.ofSource source = .ok program) :
    ∀ span ∈ program.spans, span.Marks source := by
  obtain ⟨tokens, front, htiles, hfront, hbuilds⟩ := Statement.exists_builds_of_ofSource hsource
  refine List.forall_mem_append.mpr ⟨List.forall_mem_map.mpr fun node hnode => ?_,
    List.forall_mem_map.mpr fun value hvalue => ?_⟩
  · obtain ⟨run, hrun, hnode⟩ := hbuilds.exists_run node hnode
    exact hnode.marks htiles (hrun.trans hfront)
  · obtain ⟨kind, -, htoken⟩ := hbuilds.exists_token value hvalue
    exact htiles.marks (hfront.subset htoken)

/-! ## Programs -/

/-- The place of an error of the first two stages. -/
theorem CompileError.place_of_ofSource {error : CompileError}
    (herror : Statement.ofSource source = .error error) {span : Span}
    (hspan : error.span? = some span) :
    error.AtEnd ∧ span = .empty source.utf8ByteSize ∨ ¬ error.AtEnd ∧ span.Marks source := by
  obtain hscan | ⟨found, hscan, hparse⟩ := bind_eq_error.mp herror
  · obtain ⟨reason, hreason, rfl⟩ := mapError_eq_error.mp hscan
    cases hspan
    exact .inr ⟨id, LexError.marks_of_scan hreason⟩
  · obtain ⟨reason, hreason, rfl⟩ := mapError_eq_error.mp hparse
    obtain ⟨tokens, rfl, htiles⟩ := tiles_of_scanFrom (mapError_eq_ok.mp hscan)
    rw [Nat.zero_add, Text.byteLength_toList] at hreason
    rcases Statement.ofTokens_eq_error htiles.ne_eof hreason with
      ⟨expected, rfl⟩ | ⟨token, htoken, hfound, htokenSpan⟩
    · cases hspan
      exact .inl ⟨trivial, rfl⟩
    · cases hspan
      refine .inr ⟨?_, htokenSpan ▸ htiles.marks htoken⟩
      cases reason with
      | unexpectedEnd => cases hfound
      | _ => exact id

/-- A program that does not compile was refused by the typing rules, or it has an error in its
labels. -/
theorem Statement.compile_eq_error {program : Statement} {name : String} {error : CompileError}
    (herror : program.compile name = .error error) :
    (∃ reason, error = .lowering reason ∧ Refused .empty program reason) ∨
      ∃ reason, error = .assembly reason := by
  have hobeys := program.obeys_emission (show Scope.empty.env = .empty from rfl)
  rcases program.compile_stages name with
    ⟨directives, reason, hemission, hcompile⟩ | ⟨directives, scope, -, hcompile⟩
  · rw [hcompile] at herror
    cases herror
    exact .inl ⟨reason, rfl, (hobeys.error reason).mp (by rw [hemission])⟩
  · rw [hcompile] at herror
    obtain ⟨reason, -, rfl⟩ := mapError_eq_error.mp herror
    exact .inr ⟨reason, rfl⟩

/-- The place of an error of lowering. -/
theorem CompileError.place_of_compile {program : Statement} {name : String} {error : CompileError}
    (hsource : Statement.ofSource source = .ok program)
    (herror : program.compile name = .error error) {span : Span}
    (hspan : error.span? = some span) : ¬ error.AtEnd ∧ span.Marks source := by
  rcases Statement.compile_eq_error herror with ⟨reason, rfl, hrefused⟩ | ⟨reason, rfl⟩
  · cases hspan
    exact ⟨id, Statement.marks_of_ofSource hsource _ hrefused.span_mem⟩
  · cases hspan

/-- The place of an error: the end of the source, or characters of it. -/
theorem CompileError.place {name : String} {error : CompileError}
    (herror : compile source name = .error error) {span : Span}
    (hspan : error.span? = some span) :
    error.AtEnd ∧ span = .empty source.utf8ByteSize ∨ ¬ error.AtEnd ∧ span.Marks source := by
  obtain hsource | ⟨program, hsource, hcompile⟩ := bind_eq_error.mp herror
  · exact CompileError.place_of_ofSource hsource hspan
  · exact .inr (CompileError.place_of_compile hsource hcompile hspan)

/-- Every diagnostic points into the source.  An error of a source has one label, unless it
is about the labels of the code.  The label ends inside the source, and both its ends lie
between characters; it is empty if and only if the text ended too early, and then it stands
at the end of the source. -/
theorem compile_error_label_marks {name : String} {error : CompileError}
    (herror : compile source name = .error error) :
    ((∃ label, error.diagnostic.labels = [label]) ∨
      (∃ reason, error = .assembly reason) ∧ error.diagnostic.labels = []) ∧
    ∀ label ∈ error.diagnostic.labels,
      label.offset + label.length ≤ source.utf8ByteSize ∧
      label.span.OnBoundaries source ∧
      (error.AtEnd → label.offset = source.utf8ByteSize ∧ label.length = 0) ∧
      (¬ error.AtEnd → 0 < label.length) := by
  rcases error.labels_diagnostic with ⟨span, remark, hspan, hlabels⟩ | hassembly
  · refine ⟨.inl ⟨_, hlabels⟩, ?_⟩
    rw [hlabels]
    refine List.forall_mem_singleton.mpr ?_
    rcases CompileError.place herror hspan with ⟨hend, rfl⟩ | ⟨hend, hmarks⟩
    · have hlabel : ((Span.empty source.utf8ByteSize).label remark).span = _ :=
        Span.span_label (Nat.le_refl _) remark
      have hboundaries : Span.OnBoundaries (Label.span _) source :=
        hlabel.symm ▸ Span.onBoundaries_end
      exact ⟨hboundaries.stop_le, hboundaries, fun _ => ⟨rfl, Nat.sub_self _⟩,
        fun hnot => absurd hend hnot⟩
    · have hboundaries : (span.label remark).span.OnBoundaries source := by
        rw [Span.span_label (Nat.le_of_lt hmarks.lt)]
        exact hmarks.boundaries
      exact ⟨hboundaries.stop_le, hboundaries, fun hat => absurd hat hend,
        fun _ => Nat.sub_pos_of_lt hmarks.lt⟩
  · exact ⟨.inr hassembly, by rw [hassembly.2]; nofun⟩

end

/-- A text with characters of two bytes, and with a loop that counts with a string. -/
def miscountedSource : String := "var é = \"ü\"; for é = \"ä\" to 3 do print é end; print é"

/-- The program that the text spells. -/
def Statement.miscounted : Statement :=
  .sequence (.declare "é" (.string "ü" ⟨9, 13⟩) ⟨0, 13⟩)
    (.sequence
      (.forLoop "é" (.string "ä" ⟨24, 28⟩) (.integer 3 ⟨32, 33⟩)
        (.print (.name "é" ⟨43, 45⟩) ⟨37, 45⟩) ⟨15, 49⟩)
      (.print (.name "é" ⟨57, 59⟩) ⟨51, 59⟩) ⟨15, 59⟩) ⟨0, 59⟩

/-- A text that ends in front of a name. -/
def unfinishedSource : String := "é = \"ü\"; print "

/-- The first text fails at its loop, which goes from the keyword to the word `end`, and the
second one fails at its end. -/
theorem miscounted_error_label_marks :
    (∃ error label, compile miscountedSource "test" = .error error ∧
      error.diagnostic.labels = [label] ∧ label.span = ⟨15, 49⟩ ∧ 0 < label.length ∧
      label.span.OnBoundaries miscountedSource) ∧
    ∃ error label, compile unfinishedSource "test" = .error error ∧
      error.diagnostic.labels = [label] ∧ label.offset = unfinishedSource.utf8ByteSize ∧
      label.length = 0 ∧ label.span.OnBoundaries unfinishedSource := by
  have hparse : Statement.ofSource miscountedSource = .ok Statement.miscounted :=
    eq_ok_of_toOption (by decide +kernel)
  have herror : compile miscountedSource "test" =
      .error (.lowering (.typeMismatch "é" .string .int ⟨15, 49⟩)) := by
    rw [compile, hparse]
    rfl
  have hscan : Token.scan unfinishedSource =
      .ok [⟨.word "é", ⟨0, 2⟩⟩, ⟨.equals, ⟨3, 4⟩⟩, ⟨.string "ü", ⟨5, 9⟩⟩, ⟨.semicolon, ⟨9, 10⟩⟩,
        ⟨.word "print", ⟨11, 16⟩⟩, ⟨.eof, ⟨17, 17⟩⟩] := eq_ok_of_toOption (by decide +kernel)
  have hend : compile unfinishedSource "test" =
      .error (.parse (.unexpectedEnd .expression ⟨17, 17⟩)) := by
    rw [compile, Statement.ofSource, hscan]
    cbv
  obtain ⟨-, hboundaries, -, hpos⟩ :=
    (compile_error_label_marks herror).2 _ (List.mem_singleton_self _)
  obtain ⟨-, hboundaries', hempty, -⟩ :=
    (compile_error_label_marks hend).2 _ (List.mem_singleton_self _)
  exact ⟨⟨_, _, herror, rfl, rfl, hpos id, hboundaries⟩,
    _, _, hend, rfl, (hempty trivial).1, (hempty trivial).2, hboundaries'⟩

end SlotLang
