import SlotLang.Statement.Basic
import SlotLang.Token.Basic

/-!
# The grammar of programs

The grammar relates a list of token kinds to the trees it spells.  It is written
down by itself and mentions neither positions nor lookahead:

    program  := sequence [';']
    sequence := simple | simple ';' sequence
    simple   := 'print' expression
              | 'var' word '=' expression
              | 'read_int' word
              | 'for' word '=' expression 'to' expression 'do' sequence [';'] 'end'
              | word '=' expression
    expression := string | integer | word

The sequence after a semicolon does not begin with the word `end`, and the word at
the front of an assignment is none of the four that begin the other statements.
These are the only places where the spelling of a word is asked for; elsewhere a
word is a name, whatever its spelling.

The grammar says nothing about spans: with a tree it derives every tree that differs
from it in spans only.  The spans of a tree are those of the tokens it is built from.

* `Statement.withoutSpans` — a tree up to its spans.
* `Derives` — the derivations of sequences and simple statements.
* `Spells` — the derivations of programs.
* `Builds` — the derivations from tokens with their places, which determine the spans.
-/

namespace SlotLang

/-! ## Trees up to their spans -/

/-- The expression with every span changed. -/
def Expression.mapSpans (f : Span → Span) : Expression → Expression
  | string text span => string text (f span)
  | integer value span => integer value (f span)
  | name text span => name text (f span)
  | binary operator left right span =>
      binary operator (left.mapSpans f) (right.mapSpans f) (f span)

/-- The statement with every span changed. -/
def Statement.mapSpans (f : Span → Span) : Statement → Statement
  | sequence first second span => sequence (first.mapSpans f) (second.mapSpans f) (f span)
  | declare name value span => declare name (value.mapSpans f) (f span)
  | assign name value span => assign name (value.mapSpans f) (f span)
  | print value span => print (value.mapSpans f) (f span)
  | readInt name span => readInt name (f span)
  | forLoop index lower upper body span =>
      forLoop index (lower.mapSpans f) (upper.mapSpans f) (body.mapSpans f) (f span)

/-- The expression with all its spans at the front of the text. -/
def Expression.withoutSpans (expression : Expression) : Expression :=
  expression.mapSpans fun _ => .empty 0

/-- The statement with all its spans at the front of the text. -/
def Statement.withoutSpans (statement : Statement) : Statement :=
  statement.mapSpans fun _ => .empty 0

namespace Statement

@[simp] theorem withoutSpans_sequence (first second : Statement) (span : Span) :
    (sequence first second span).withoutSpans =
      sequence first.withoutSpans second.withoutSpans (.empty 0) := rfl

@[simp] theorem withoutSpans_declare (name : String) (value : Expression) (span : Span) :
    (declare name value span).withoutSpans = declare name value.withoutSpans (.empty 0) := rfl

@[simp] theorem withoutSpans_assign (name : String) (value : Expression) (span : Span) :
    (assign name value span).withoutSpans = assign name value.withoutSpans (.empty 0) := rfl

@[simp] theorem withoutSpans_print (value : Expression) (span : Span) :
    (print value span).withoutSpans = print value.withoutSpans (.empty 0) := rfl

@[simp] theorem withoutSpans_readInt (name : String) (span : Span) :
    (readInt name span).withoutSpans = readInt name (.empty 0) := rfl

@[simp] theorem withoutSpans_forLoop (index : String) (lower upper : Expression)
    (body : Statement) (span : Span) :
    (forLoop index lower upper body span).withoutSpans =
      forLoop index lower.withoutSpans upper.withoutSpans body.withoutSpans (.empty 0) := rfl

end Statement

/-! ## Derivations -/

/-- A single token spells an expression. -/
inductive Denotes : TokenKind → Expression → Prop
  | string (text : String) (span : Span) : Denotes (.string text) (.string text span)
  | integer (value : Int32) (span : Span) : Denotes (.integer value) (.integer value span)
  | word (name : String) (span : Span) : Denotes (.word name) (.name name span)

/-- Nothing, or one semicolon. -/
inductive OptionalSemicolon : List TokenKind → Prop
  | absent : OptionalSemicolon []
  | present : OptionalSemicolon [.semicolon]

/-- The words that begin a statement other than an assignment. -/
def leadingKeywords : List String := ["print", "var", "read_int", "for"]

/-- The two kinds of phrase that refer to each other. -/
inductive Phrase where
  /-- A statement that is no sequence. -/
  | simple
  /-- Simple statements with semicolons between them. -/
  | sequence

/-- The derivations of statements. -/
inductive Derives : Phrase → List TokenKind → Statement → Prop
  | print {kind : TokenKind} {value : Expression} (span : Span) (hvalue : Denotes kind value) :
      Derives .simple [.word "print", kind] (.print value span)
  | declare {name : String} {kind : TokenKind} {value : Expression} (span : Span)
      (hvalue : Denotes kind value) :
      Derives .simple [.word "var", .word name, .equals, kind] (.declare name value span)
  | readInt (name : String) (span : Span) :
      Derives .simple [.word "read_int", .word name] (.readInt name span)
  | forLoop {index : String} {low high : TokenKind} {lower upper : Expression}
      {inner trail : List TokenKind} {body : Statement} (span : Span)
      (hlower : Denotes low lower) (hupper : Denotes high upper)
      (hbody : Derives .sequence inner body) (htrail : OptionalSemicolon trail) :
      Derives .simple
        (.word "for" :: .word index :: .equals :: low :: .word "to" :: high :: .word "do" ::
          (inner ++ trail ++ [.word "end"]))
        (.forLoop index lower upper body span)
  | assign {name : String} {kind : TokenKind} {value : Expression} (span : Span)
      (hname : name ∉ leadingKeywords) (hvalue : Denotes kind value) :
      Derives .simple [.word name, .equals, kind] (.assign name value span)
  | single {kinds : List TokenKind} {statement : Statement}
      (hsimple : Derives .simple kinds statement) : Derives .sequence kinds statement
  | andThen {kinds others : List TokenKind} {first second : Statement} (span : Span)
      (hfirst : Derives .simple kinds first) (hsecond : Derives .sequence others second)
      (hend : others.head? ≠ some (.word "end")) :
      Derives .sequence (kinds ++ .semicolon :: others) (.sequence first second span)

/-- The kinds of tokens that spell a program. -/
def Spells (kinds : List TokenKind) (program : Statement) : Prop :=
  ∃ body trail, Derives .sequence body program ∧ OptionalSemicolon trail ∧ kinds = body ++ trail

/-! ## Derivations and spans -/

theorem Denotes.of_withoutSpans {kind : TokenKind} {value other : Expression}
    (hvalue : Denotes kind value) (hsame : other.withoutSpans = value.withoutSpans) :
    Denotes kind other := by
  cases hvalue with
  | string text span =>
      cases other <;> cases hsame
      exact .string text _
  | integer n span =>
      cases other <;> cases hsame
      exact .integer n _
  | word name span =>
      cases other <;> cases hsame
      exact .word name _

/-- A derivation does not depend on the spans of its tree. -/
theorem Derives.of_withoutSpans {phrase : Phrase} {kinds : List TokenKind}
    {statement other : Statement} (hderives : Derives phrase kinds statement)
    (hsame : other.withoutSpans = statement.withoutSpans) : Derives phrase kinds other := by
  induction hderives generalizing other with
  | print span hvalue =>
      cases other with
      | print value' span' =>
          obtain ⟨hsameValue, -⟩ := Statement.print.inj hsame
          exact .print span' (hvalue.of_withoutSpans hsameValue)
      | _ => cases hsame
  | declare span hvalue =>
      cases other with
      | declare name' value' span' =>
          obtain ⟨rfl, hsameValue, -⟩ := Statement.declare.inj hsame
          exact .declare span' (hvalue.of_withoutSpans hsameValue)
      | _ => cases hsame
  | readInt name span =>
      cases other with
      | readInt name' span' =>
          obtain ⟨rfl, -⟩ := Statement.readInt.inj hsame
          exact .readInt name' span'
      | _ => cases hsame
  | forLoop span hlower hupper hbody htrail ih =>
      cases other with
      | forLoop index' lower' upper' body' span' =>
          obtain ⟨rfl, hsameLower, hsameUpper, hsameBody, -⟩ := Statement.forLoop.inj hsame
          exact .forLoop span' (hlower.of_withoutSpans hsameLower)
            (hupper.of_withoutSpans hsameUpper) (ih hsameBody) htrail
      | _ => cases hsame
  | assign span hname hvalue =>
      cases other with
      | assign name' value' span' =>
          obtain ⟨rfl, hsameValue, -⟩ := Statement.assign.inj hsame
          exact .assign span' hname (hvalue.of_withoutSpans hsameValue)
      | _ => cases hsame
  | single hsimple ih => exact .single (ih hsame)
  | andThen span hfirst hsecond hend ihfirst ihsecond =>
      cases other with
      | sequence first' second' span' =>
          obtain ⟨hsameFirst, hsameSecond, -⟩ := Statement.sequence.inj hsame
          exact .andThen span' (ihfirst hsameFirst) (ihsecond hsameSecond) hend
      | _ => cases hsame

theorem Spells.of_withoutSpans {kinds : List TokenKind} {program other : Statement}
    (hspells : Spells kinds program) (hsame : other.withoutSpans = program.withoutSpans) :
    Spells kinds other := by
  obtain ⟨body, trail, hbody, htrail, hkinds⟩ := hspells
  exact ⟨body, trail, hbody.of_withoutSpans hsame, htrail, hkinds⟩

/-- Every phrase begins with a word. -/
theorem Derives.exists_word {phrase : Phrase} {kinds : List TokenKind} {statement : Statement}
    (hderives : Derives phrase kinds statement) :
    ∃ word others, kinds = .word word :: others := by
  induction hderives with
  | print => exact ⟨_, _, rfl⟩
  | declare => exact ⟨_, _, rfl⟩
  | readInt => exact ⟨_, _, rfl⟩
  | forLoop => exact ⟨_, _, rfl⟩
  | assign => exact ⟨_, _, rfl⟩
  | single hsimple ih => exact ih
  | andThen span hfirst hsecond hend ihfirst ihsecond =>
      obtain ⟨word, others, rfl⟩ := ihfirst
      exact ⟨word, _, rfl⟩

theorem Denotes.ne_eof {kind : TokenKind} {value : Expression} (hvalue : Denotes kind value) :
    kind ≠ .eof := by
  cases hvalue <;> nofun

theorem OptionalSemicolon.ne_eof {trail : List TokenKind} (htrail : OptionalSemicolon trail) :
    ∀ kind ∈ trail, kind ≠ .eof := by
  cases htrail with
  | absent => nofun
  | present => simp

/-- No phrase contains the end of the text. -/
theorem Derives.ne_eof {phrase : Phrase} {kinds : List TokenKind} {statement : Statement}
    (hderives : Derives phrase kinds statement) : ∀ kind ∈ kinds, kind ≠ .eof := by
  induction hderives with
  | print span hvalue => simp [hvalue.ne_eof]
  | declare span hvalue => simp [hvalue.ne_eof]
  | readInt name span => simp
  | forLoop span hlower hupper hbody htrail ih =>
      simp only [List.forall_mem_cons, List.forall_mem_append]
      exact ⟨nofun, nofun, nofun, hlower.ne_eof, nofun, hupper.ne_eof, nofun,
        ⟨ih, htrail.ne_eof⟩, nofun, nofun⟩
  | assign span hname hvalue => simp [hvalue.ne_eof]
  | single hsimple ih => exact ih
  | andThen span hfirst hsecond hend ihfirst ihsecond =>
      exact List.forall_mem_append.mpr ⟨ihfirst, List.forall_mem_cons.mpr ⟨nofun, ihsecond⟩⟩

/-! ## Derivations at places -/

/-- The derivations of statements from tokens at their places.  A statement covers its
tokens from the first to the last, and an expression has the place of its token. -/
inductive Builds : Phrase → List Token → Statement → Prop
  | print {kind : TokenKind} {value : Expression} (start : Span) (hvalue : Denotes kind value) :
      Builds .simple [⟨.word "print", start⟩, ⟨kind, value.span⟩]
        (.print value (start.hull value.span))
  | declare {name : String} {kind : TokenKind} {value : Expression} (start place equals : Span)
      (hvalue : Denotes kind value) :
      Builds .simple
        [⟨.word "var", start⟩, ⟨.word name, place⟩, ⟨.equals, equals⟩, ⟨kind, value.span⟩]
        (.declare name value (start.hull value.span))
  | readInt (name : String) (start place : Span) :
      Builds .simple [⟨.word "read_int", start⟩, ⟨.word name, place⟩]
        (.readInt name (start.hull place))
  | forLoop {index : String} {low high : TokenKind} {lower upper : Expression}
      {inner trail : List Token} {body : Statement} (start place equals middle last stop : Span)
      (hlower : Denotes low lower) (hupper : Denotes high upper)
      (hbody : Builds .sequence inner body) (htrail : OptionalSemicolon (trail.map Token.kind)) :
      Builds .simple
        (⟨.word "for", start⟩ :: ⟨.word index, place⟩ :: ⟨.equals, equals⟩ ::
          ⟨low, lower.span⟩ :: ⟨.word "to", middle⟩ :: ⟨high, upper.span⟩ ::
          ⟨.word "do", last⟩ :: (inner ++ trail ++ [⟨.word "end", stop⟩]))
        (.forLoop index lower upper body (start.hull stop))
  | assign {name : String} {kind : TokenKind} {value : Expression} (start equals : Span)
      (hname : name ∉ leadingKeywords) (hvalue : Denotes kind value) :
      Builds .simple [⟨.word name, start⟩, ⟨.equals, equals⟩, ⟨kind, value.span⟩]
        (.assign name value (start.hull value.span))
  | single {tokens : List Token} {statement : Statement}
      (hsimple : Builds .simple tokens statement) : Builds .sequence tokens statement
  | andThen {tokens others : List Token} {first second : Statement} (place : Span)
      (hfirst : Builds .simple tokens first) (hsecond : Builds .sequence others second)
      (hend : (others.map Token.kind).head? ≠ some (.word "end")) :
      Builds .sequence (tokens ++ ⟨.semicolon, place⟩ :: others) (first.andThen second)

theorem Builds.derives {phrase : Phrase} {tokens : List Token} {statement : Statement}
    (hbuilds : Builds phrase tokens statement) :
    Derives phrase (tokens.map Token.kind) statement := by
  induction hbuilds with
  | print start hvalue => exact .print _ hvalue
  | declare start place equals hvalue => exact .declare _ hvalue
  | readInt name start place => exact .readInt name _
  | forLoop start place equals middle last stop hlower hupper hbody htrail ih =>
      simp only [List.map_cons, List.map_append, List.map_nil]
      exact .forLoop _ hlower hupper ih htrail
  | assign start equals hname hvalue => exact .assign _ hname hvalue
  | single hsimple ih => exact .single ih
  | andThen place hfirst hsecond hend ihfirst ihsecond =>
      rw [List.map_append, List.map_cons]
      exact .andThen _ ihfirst ihsecond hend

theorem Builds.ne_eof {phrase : Phrase} {tokens : List Token} {statement : Statement}
    (hbuilds : Builds phrase tokens statement) : ∀ token ∈ tokens, token.kind ≠ .eof :=
  fun token htoken => hbuilds.derives.ne_eof token.kind (List.mem_map_of_mem htoken)

end SlotLang
