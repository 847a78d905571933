import SlotLang.Proofs.DeclarationOrder
import SlotLang.Proofs.TiledText

/-!
# The text under a node is its source

Every node of a program has the span of the text that it was read from.  This text, taken
by itself, is the source of a program, and the program is the node, moved to the front of
the text.  For an expression, the text is that of a single token.

A node is built from consecutive tokens, and its span goes from the beginning of the first
to the end of the last.  The lexer finds the same tokens in the text between these two
places, and what is built from tokens moves with them.

* `Statement.nodes`, `Statement.expressions` — the nodes of a program.
* `Builds.mapSpans` — what is built from tokens moves with them.
* `Builds.exists_run` — a node is built from consecutive tokens.
* `Builds.span_eq` — the span of a statement is that of its tokens.
* `Statement.ofSource_node_text` — the text under a node is its source.
-/

namespace SlotLang

/-! ## Nodes -/

/-- An expression and its operands. -/
def Expression.nodes : Expression → List Expression
  | string text span => [string text span]
  | integer value span => [integer value span]
  | name text span => [name text span]
  | binary operator left right span =>
      binary operator left right span :: (left.nodes ++ right.nodes)

namespace Statement

/-- A statement and the statements that it is made up of. -/
def nodes : Statement → List Statement
  | sequence first second span => sequence first second span :: (first.nodes ++ second.nodes)
  | declare name value span => [declare name value span]
  | assign name value span => [assign name value span]
  | print value span => [print value span]
  | readInt name span => [readInt name span]
  | forLoop index lower upper body span => forLoop index lower upper body span :: body.nodes

/-- The expressions of a statement. -/
def expressions : Statement → List Expression
  | sequence first second _ => first.expressions ++ second.expressions
  | declare _ value _ => value.nodes
  | assign _ value _ => value.nodes
  | print value _ => value.nodes
  | readInt _ _ => []
  | forLoop _ lower upper body _ => lower.nodes ++ upper.nodes ++ body.expressions

end Statement

theorem Denotes.nodes_eq {kind : TokenKind} {value : Expression} (hvalue : Denotes kind value) :
    value.nodes = [value] := by
  cases hvalue <;> rfl

/-- A node is built from consecutive tokens of the whole. -/
theorem Builds.exists_run {phrase : Phrase} {tokens : List Token} {statement : Statement}
    (hbuilds : Builds phrase tokens statement) :
    ∀ node ∈ statement.nodes, ∃ run, run <:+: tokens ∧ Builds .sequence run node := by
  intro node hnode
  induction hbuilds with
  | print start hvalue =>
      obtain rfl := List.mem_singleton.mp hnode
      exact ⟨_, List.infix_rfl, .single (.print start hvalue)⟩
  | declare start place equals hvalue =>
      obtain rfl := List.mem_singleton.mp hnode
      exact ⟨_, List.infix_rfl, .single (.declare start place equals hvalue)⟩
  | readInt name start place =>
      obtain rfl := List.mem_singleton.mp hnode
      exact ⟨_, List.infix_rfl, .single (.readInt name start place)⟩
  | @forLoop index low high lower upper inner trail body start place equals middle last stop hlower
      hupper hbody htrail ih =>
      rcases List.mem_cons.mp hnode with rfl | hnode
      · exact ⟨_, List.infix_rfl,
          .single (.forLoop start place equals middle last stop hlower hupper hbody htrail)⟩
      · obtain ⟨run, hrun, hnode⟩ := ih hnode
        refine ⟨run, hrun.trans ?_, hnode⟩
        rw [List.append_assoc]
        exact (List.prefix_append _ _).isInfix.trans
          (List.suffix_append [_, _, _, _, _, _, _] _).isInfix
  | assign start equals hname hvalue =>
      obtain rfl := List.mem_singleton.mp hnode
      exact ⟨_, List.infix_rfl, .single (.assign start equals hname hvalue)⟩
  | single hsimple ih => exact ih hnode
  | andThen place hfirst hsecond hend ihfirst ihsecond =>
      rcases List.mem_cons.mp hnode with rfl | hnode
      · exact ⟨_, List.infix_rfl, .andThen place hfirst hsecond hend⟩
      · rcases List.mem_append.mp hnode with hnode | hnode
        · obtain ⟨run, hrun, hnode⟩ := ihfirst hnode
          exact ⟨run, hrun.trans (List.prefix_append _ _).isInfix, hnode⟩
        · obtain ⟨run, hrun, hnode⟩ := ihsecond hnode
          exact ⟨run, hrun.trans ((List.suffix_cons _ _).trans (List.suffix_append _ _)).isInfix,
            hnode⟩

/-- An expression has a token, and the place of it. -/
theorem Builds.exists_token {phrase : Phrase} {tokens : List Token} {statement : Statement}
    (hbuilds : Builds phrase tokens statement) :
    ∀ value ∈ statement.expressions, ∃ kind, Denotes kind value ∧ ⟨kind, value.span⟩ ∈ tokens := by
  intro value hmem
  induction hbuilds with
  | print start hvalue =>
      rw [Statement.expressions, hvalue.nodes_eq, List.mem_singleton] at hmem
      subst hmem
      exact ⟨_, hvalue, by simp⟩
  | declare start place equals hvalue =>
      rw [Statement.expressions, hvalue.nodes_eq, List.mem_singleton] at hmem
      subst hmem
      exact ⟨_, hvalue, by simp⟩
  | readInt name start place => cases hmem
  | forLoop start place equals middle last stop hlower hupper hbody htrail ih =>
      rw [Statement.expressions, hlower.nodes_eq, hupper.nodes_eq, List.mem_append] at hmem
      rcases hmem with hmem | hmem
      · rcases List.mem_pair.mp hmem with rfl | rfl
        · exact ⟨_, hlower, by simp⟩
        · exact ⟨_, hupper, by simp⟩
      · obtain ⟨kind, hvalue, htoken⟩ := ih hmem
        exact ⟨kind, hvalue, by simp [htoken]⟩
  | assign start equals hname hvalue =>
      rw [Statement.expressions, hvalue.nodes_eq, List.mem_singleton] at hmem
      subst hmem
      exact ⟨_, hvalue, by simp⟩
  | single hsimple ih => exact ih hmem
  | andThen place hfirst hsecond hend ihfirst ihsecond =>
      rcases List.mem_append.mp hmem with hmem | hmem
      · obtain ⟨kind, hvalue, htoken⟩ := ihfirst hmem
        exact ⟨kind, hvalue, by simp [htoken]⟩
      · obtain ⟨kind, hvalue, htoken⟩ := ihsecond hmem
        exact ⟨kind, hvalue, by simp [htoken]⟩

/-! ## The span of a statement -/

section

variable {low high : Nat} {tokens : List Token}

theorem InOrder.le_endOf (horder : InOrder low tokens high) :
    low ≤ endOf low tokens ∧ endOf low tokens ≤ high := by
  induction tokens generalizing low with
  | nil => exact ⟨Nat.le_refl low, horder⟩
  | cons token rest ih =>
      obtain ⟨hlow, hlt, hrest⟩ := horder
      obtain ⟨hle, hhigh⟩ := ih hrest
      rw [endOf_cons]
      exact ⟨by omega, hhigh⟩

theorem InOrder.of_infix {run : List Token} (horder : InOrder low tokens high)
    (hrun : run <:+: tokens) : ∃ low' high', InOrder low' run high' := by
  obtain ⟨before, after, rfl⟩ := hrun
  obtain ⟨high', hfront, -⟩ := InOrder.append_iff.mp horder
  obtain ⟨low', -, hmiddle⟩ := InOrder.append_iff.mp hfront
  exact ⟨low', high', hmiddle⟩

/-- The span of a statement goes from its first token to its last. -/
theorem Builds.span_eq {phrase : Phrase} {statement : Statement}
    (hbuilds : Builds phrase tokens statement) (horder : InOrder low tokens high) :
    ∃ first rest, tokens = first :: rest ∧
      statement.span = ⟨first.span.start, endOf first.span.stop rest⟩ := by
  induction hbuilds generalizing low high with
  | print start hvalue =>
      simp only [InOrder] at horder
      exact ⟨_, _, rfl, Span.hull_of_le (by omega) (by omega)⟩
  | declare start place equals hvalue =>
      simp only [InOrder] at horder
      exact ⟨_, _, rfl, Span.hull_of_le (by omega) (by omega)⟩
  | readInt name start place =>
      simp only [InOrder] at horder
      exact ⟨_, _, rfl, Span.hull_of_le (by omega) (by omega)⟩
  | forLoop start place equals middle last stop hlower hupper hbody htrail ih =>
      obtain ⟨hhull, -⟩ := horder.forLoop
      refine ⟨_, _, rfl, ?_⟩
      simp [Statement.span, hhull, endOf]
  | assign start equals hname hvalue =>
      simp only [InOrder] at horder
      exact ⟨_, _, rfl, Span.hull_of_le (by omega) (by omega)⟩
  | single hsimple ih => exact ih horder
  | andThen place hfirst hsecond hend ihfirst ihsecond =>
      obtain ⟨middle, hfront, hplace, hplace', hothers⟩ := InOrder.append_iff.mp horder
      obtain ⟨first, rest, rfl, hfirstSpan⟩ := ihfirst hfront
      obtain ⟨second, others, rfl, hsecondSpan⟩ := ihsecond hothers
      obtain ⟨-, hstop⟩ := hfront.le_endOf
      obtain ⟨hstop', -⟩ := hothers.le_endOf
      obtain ⟨-, hlt, hrest⟩ := hfront
      have hle := hrest.le
      have hstart := hothers.1
      rw [endOf_cons] at hstop hstop'
      refine ⟨first, rest ++ ⟨.semicolon, place⟩ :: second :: others, rfl, ?_⟩
      rw [Statement.andThen, Statement.span, hfirstSpan, hsecondSpan, endOf_append]
      exact Span.hull_of_le (by simp only; omega) (by simp only; omega)

end

/-! ## Trees at other places -/

theorem Expression.span_mapSpans (f : Span → Span) (value : Expression) :
    (value.mapSpans f).span = f value.span := by
  cases value <;> rfl

theorem Statement.span_mapSpans (f : Span → Span) (statement : Statement) :
    (statement.mapSpans f).span = f statement.span := by
  cases statement <;> rfl

theorem Denotes.mapSpans {kind : TokenKind} {value : Expression} (hvalue : Denotes kind value)
    (f : Span → Span) : Denotes kind (value.mapSpans f) := by
  cases hvalue with
  | string text span => exact .string text (f span)
  | integer n span => exact .integer n (f span)
  | word name span => exact .word name (f span)

theorem map_kind_mapSpan (f : Span → Span) (tokens : List Token) :
    (tokens.map (Token.mapSpan f)).map Token.kind = tokens.map Token.kind := by
  rw [List.map_map]
  rfl

/-- What is built from tokens moves with them, if the spans that cover others do. -/
theorem Builds.mapSpans {phrase : Phrase} {tokens : List Token} {statement : Statement}
    (hbuilds : Builds phrase tokens statement) {f : Span → Span}
    (hf : ∀ a b : Span, f (a.hull b) = (f a).hull (f b)) :
    Builds phrase (tokens.map (Token.mapSpan f)) (statement.mapSpans f) := by
  induction hbuilds with
  | print start hvalue =>
      have hmoved := Builds.print (f start) (hvalue.mapSpans f)
      rw [Expression.span_mapSpans, ← hf] at hmoved
      exact hmoved
  | @declare name kind value start place equals hvalue =>
      have hmoved : Builds .simple _ (.declare name _ _) :=
        .declare (f start) (f place) (f equals) (hvalue.mapSpans f)
      rw [Expression.span_mapSpans, ← hf] at hmoved
      exact hmoved
  | readInt name start place =>
      have hmoved := Builds.readInt name (f start) (f place)
      rw [← hf] at hmoved
      exact hmoved
  | @forLoop index low high lower upper inner trail body start place equals middle last stop hlower
      hupper hbody htrail ih =>
      rw [← map_kind_mapSpan f] at htrail
      have hmoved : Builds .simple _ (.forLoop index _ _ _ _) :=
        .forLoop (f start) (f place) (f equals) (f middle) (f last) (f stop) (hlower.mapSpans f)
          (hupper.mapSpans f) ih htrail
      rw [Expression.span_mapSpans, Expression.span_mapSpans, ← hf] at hmoved
      simp only [List.map_cons, List.map_append, List.map_nil]
      exact hmoved
  | assign start equals hname hvalue =>
      have hmoved := Builds.assign (f start) (f equals) hname (hvalue.mapSpans f)
      rw [Expression.span_mapSpans, ← hf] at hmoved
      exact hmoved
  | single hsimple ih => exact .single ih
  | andThen place hfirst hsecond hend ihfirst ihsecond =>
      rw [← map_kind_mapSpan f] at hend
      have hmoved := Builds.andThen (f place) ihfirst ihsecond hend
      rw [Statement.andThen, Statement.span_mapSpans, Statement.span_mapSpans, ← hf] at hmoved
      rw [List.map_append, List.map_cons]
      exact hmoved

/-- The parser returns the tree that is built from all tokens before the end. -/
theorem Builds.ofTokens_eq {tokens : List Token} {statement : Statement}
    (hbuilds : Builds .sequence tokens statement) (place : Span) :
    Statement.ofTokens (tokens ++ [⟨.eof, place⟩]) = .ok statement := by
  obtain ⟨last, hcut⟩ := TokenStream.tokens_cut_append hbuilds.ne_eof [⟨.eof, place⟩] 0
  refine Statement.ofStream_eq_ok.mpr ?_
  rw [TokenStream.ofList, hcut]
  exact hbuilds.reads _ [] [] (.plain rfl)

/-- Tokens build one tree at most. -/
theorem Builds.unique {tokens : List Token} {statement other : Statement}
    (hbuilds : Builds .sequence tokens statement) (hother : Builds .sequence tokens other) :
    statement = other :=
  Except.ok.inj ((hbuilds.ofTokens_eq (.empty 0)).symm.trans (hother.ofTokens_eq (.empty 0)))

/-! ## Programs -/

/-- The text from the first to the last of the tokens of a statement is the source of it. -/
theorem Builds.ofSource_text {source : String} {tokens run : List Token} {node : Statement}
    (htiles : Tiles 0 source.toList tokens) (hrun : run <:+: tokens)
    (hbuilds : Builds .sequence run node) :
    node.span.OnBoundaries source ∧
      Statement.ofSource (node.span.text source) =
        .ok (node.mapSpans (Span.shiftLeft node.span.start)) ∧
      (node.mapSpans (Span.shiftLeft node.span.start)).mapSpans
        (Span.shiftRight node.span.start) = node := by
  obtain ⟨low, high, horder⟩ := htiles.inOrder.of_infix hrun
  obtain ⟨first, rest, rfl, hspan⟩ := hbuilds.span_eq horder
  obtain ⟨hboundaries, hscan, hback⟩ := Token.scan_part htiles hrun hspan
  have hmoved := hbuilds.mapSpans (Span.shiftLeft_hull node.span.start)
  refine ⟨hboundaries, ?_, ?_⟩
  · exact bind_eq_ok.mpr
      ⟨_, mapError_eq_ok.mpr hscan, mapError_eq_ok.mpr (hmoved.ofTokens_eq _)⟩
  · have hagain := hmoved.mapSpans (Span.shiftRight_hull node.span.start)
    rw [hback] at hagain
    exact hagain.unique hbuilds

/-- The text under a token is scanned to this token. -/
theorem Token.scan_text {source : String} {tokens : List Token} {token : Token}
    (htiles : Tiles 0 source.toList tokens) (htoken : token ∈ tokens) :
    token.span.OnBoundaries source ∧
      Token.scan (token.span.text source) =
        .ok [⟨token.kind, ⟨0, token.span.length⟩⟩, ⟨.eof, .empty token.span.length⟩] := by
  obtain ⟨before, after, rfl⟩ := List.append_of_mem htoken
  have hrun : [token] <:+: before ++ token :: after := ⟨before, after, by simp⟩
  obtain ⟨hboundaries, hscan, -⟩ := Token.scan_part htiles hrun rfl
  refine ⟨hboundaries, hscan.trans ?_⟩
  simp [Token.mapSpan, Span.shiftLeft, Span.length, endOf]

/-- A program is built from the tokens of its source, up to a semicolon at the end. -/
theorem Statement.exists_builds_of_ofSource {source : String} {program : Statement}
    (hsource : Statement.ofSource source = .ok program) :
    ∃ tokens front, Tiles 0 source.toList tokens ∧ front <:+: tokens ∧
      Builds .sequence front program := by
  obtain ⟨found, hscan, hparse⟩ := bind_eq_ok.mp hsource
  rw [mapError_eq_ok] at hscan hparse
  obtain ⟨tokens, rfl, htiles⟩ := tiles_of_scanFrom hscan
  obtain ⟨front, trail, rfl, hbuilds⟩ := Statement.builds_of_ofTokens htiles.ne_eof hparse
  exact ⟨front ++ trail, front, htiles, (List.prefix_append front trail).isInfix, hbuilds⟩

/-- The text under a node of a program is the source of it.  The text under a statement is
that of a program by itself, which is the statement, moved to the front; the text under an
expression is that of the token that spells it. -/
theorem Statement.ofSource_node_text {source : String} {program : Statement}
    (hsource : Statement.ofSource source = .ok program) :
    (∀ node ∈ program.nodes,
      node.span.OnBoundaries source ∧
        Statement.ofSource (node.span.text source) =
          .ok (node.mapSpans (Span.shiftLeft node.span.start)) ∧
        (node.mapSpans (Span.shiftLeft node.span.start)).mapSpans
          (Span.shiftRight node.span.start) = node) ∧
    ∀ value ∈ program.expressions,
      value.span.OnBoundaries source ∧ ∃ kind, Denotes kind value ∧
        Token.scan (value.span.text source) =
          .ok [⟨kind, ⟨0, value.span.length⟩⟩, ⟨.eof, .empty value.span.length⟩] := by
  obtain ⟨tokens, front, htiles, hfront, hbuilds⟩ := Statement.exists_builds_of_ofSource hsource
  refine ⟨fun node hnode => ?_, fun value hvalue => ?_⟩
  · obtain ⟨run, hrun, hnode⟩ := hbuilds.exists_run node hnode
    exact hnode.ofSource_text htiles (hrun.trans hfront)
  · obtain ⟨kind, hkind, htoken⟩ := hbuilds.exists_token value hvalue
    obtain ⟨hboundaries, hscan⟩ := Token.scan_text htiles (hfront.subset htoken)
    exact ⟨hboundaries, kind, hkind, hscan⟩

/-- A text with a semicolon in front of the end of a loop and one after it, and with
characters of two bytes. -/
def trailingSource : String := " var é = \"ü;\"; for i = 007 to é do print é ; é=i; end ;"

/-- The body of the loop in that text. -/
def Statement.trailingBody : Statement :=
  .sequence (.print (.name "é" ⟨44, 46⟩) ⟨38, 46⟩) (.assign "é" (.name "i" ⟨52, 53⟩) ⟨49, 53⟩)
    ⟨38, 53⟩

/-- The program of that text. -/
def Statement.trailing : Statement :=
  .sequence (.declare "é" (.string "ü;" ⟨10, 15⟩) ⟨1, 15⟩)
    (.forLoop "i" (.integer 7 ⟨25, 28⟩) (.name "é" ⟨32, 34⟩) Statement.trailingBody ⟨17, 58⟩)
    ⟨1, 58⟩

theorem Statement.trailing_ofSource_node_text :
    Statement.ofSource trailingSource = .ok Statement.trailing ∧
      Statement.ofSource (Span.text ⟨1, 58⟩ trailingSource) =
        .ok (Statement.trailing.mapSpans (Span.shiftLeft 1)) ∧
      Statement.ofSource (Span.text ⟨38, 53⟩ trailingSource) =
        .ok (.sequence (.print (.name "é" ⟨6, 8⟩) ⟨0, 8⟩)
          (.assign "é" (.name "i" ⟨14, 15⟩) ⟨11, 15⟩) ⟨0, 15⟩) ∧
      ∃ kind, Denotes kind (.integer 7 ⟨25, 28⟩) ∧
        Token.scan (Span.text ⟨25, 28⟩ trailingSource) =
          .ok [⟨kind, ⟨0, 3⟩⟩, ⟨.eof, .empty 3⟩] := by
  have hsource : Statement.ofSource trailingSource = .ok Statement.trailing :=
    eq_ok_of_toOption (by decide +kernel)
  obtain ⟨hnodes, hexpressions⟩ := Statement.ofSource_node_text hsource
  exact ⟨hsource, (hnodes Statement.trailing (by decide)).2.1,
    (hnodes Statement.trailingBody (by decide)).2.1,
    (hexpressions (.integer 7 ⟨25, 28⟩) (by decide)).2⟩

end SlotLang
