import SlotLang.Proofs.ParsedPrograms
import SlotLang.Proofs.TokenizedText
import SlotLang.Proofs.TypeChecking

/-!
# Names are declared before they are used

A name is declared by a `var` statement or by the head of a loop.  In a program that
compiles a declaration of the name ends before every place where the name is read, with
one exception: the bound of a loop is looked up after the body, so a name that stands
there may be declared by the body, which comes later in the text.

The order of the text is that of the tokens, which is known from the lexer.  The parser
gives it to the tree, and the typing rules say which names are known at which place.

* `Statement.reads`, `Statement.bounds`, `Statement.declarations` — the places of names.
* `Statement.Laid` — the parts of a statement follow each other in the text.
* `Statement.OrderedIn` — every name is declared before it is read.
* `compile_orderedIn` — the programs that compile are of this form.
-/

namespace SlotLang

/-! ## The places of names -/

/-- A name at a place of the text. -/
structure Mention where
  name : String
  span : Span
deriving DecidableEq, Repr

/-- The names that an expression reads. -/
def Expression.names : Expression → List Mention
  | string _ _ => []
  | integer _ _ => []
  | name text span => [⟨text, span⟩]
  | binary _ left right _ => left.names ++ right.names

namespace Statement

/-- The names that a statement reads, but for those in the bounds of loops. -/
def reads : Statement → List Mention
  | sequence first second _ => first.reads ++ second.reads
  | declare _ value _ => value.names
  | assign _ value _ => value.names
  | print value _ => value.names
  | readInt _ _ => []
  | forLoop _ lower _ body _ => lower.names ++ body.reads

/-- The names in the bounds of loops, each with the body of its loop. -/
def bounds : Statement → List (Mention × Statement)
  | sequence first second _ => first.bounds ++ second.bounds
  | forLoop _ _ upper body _ => upper.names.map (·, body) ++ body.bounds
  | _ => []

/-- All the names that a statement reads. -/
def uses (statement : Statement) : List Mention :=
  statement.reads ++ statement.bounds.map Prod.fst

@[simp] theorem uses_declare (name : String) (value : Expression) (span : Span) :
    (declare name value span).uses = value.names := List.append_nil _

@[simp] theorem uses_assign (name : String) (value : Expression) (span : Span) :
    (assign name value span).uses = value.names := List.append_nil _

@[simp] theorem uses_print (value : Expression) (span : Span) :
    (print value span).uses = value.names := List.append_nil _

@[simp] theorem mem_uses_sequence {use : Mention} {first second : Statement} {span : Span} :
    use ∈ (sequence first second span).uses ↔ use ∈ first.uses ∨ use ∈ second.uses := by
  simp only [uses, reads, bounds, List.map_append, List.mem_append]
  exact or_or_or_comm

@[simp] theorem mem_uses_forLoop {use : Mention} {index : String} {lower upper : Expression}
    {body : Statement} {span : Span} :
    use ∈ (forLoop index lower upper body span).uses ↔
      use ∈ lower.names ∨ use ∈ upper.names ∨ use ∈ body.uses := by
  have hnames : (upper.names.map (·, body)).map Prod.fst = upper.names := by
    simp [Function.comp_def]
  simp only [uses, reads, bounds, List.map_append, List.mem_append, hnames, or_assoc]
  exact or_congr_right or_left_comm

/-- The names that a statement declares.  A declaration is as long as its `var` statement,
or as the head of its loop up to the first value of the index. -/
def declarations : Statement → List Mention
  | sequence first second _ => first.declarations ++ second.declarations
  | declare name _ span => [⟨name, span⟩]
  | forLoop index lower _ body span =>
      ⟨index, ⟨span.start, lower.span.stop⟩⟩ :: body.declarations
  | _ => []

end Statement

/-- One of the declarations is of the given name and ends before the offset. -/
def DeclaredBefore (declarations : List Mention) (offset : Nat) (name : String) : Prop :=
  ∃ declaration ∈ declarations, declaration.name = name ∧
    declaration.span.start < declaration.span.stop ∧ declaration.span.stop ≤ offset

/-- The tokens of a declaration, from its keyword to its value, stand in a row and take up
its span. -/
def Mention.DeclaredIn (declaration : Mention) (tokens : List Token) : Prop :=
  ∃ keyword start place equals value, (keyword = "var" ∨ keyword = "for") ∧
    [⟨.word keyword, start⟩, ⟨.word declaration.name, place⟩, ⟨.equals, equals⟩, value] <:+:
      tokens ∧
    declaration.span = ⟨start.start, value.span.stop⟩

/-- The names of a program have their places in the tokens, and a declaration of each name
ends before the name is read.  For the bound of a loop, the declaration may instead be one
of the body of the loop. -/
structure Statement.OrderedIn (program : Statement) (tokens : List Token) : Prop where
  words : ∀ use ∈ program.uses, ⟨.word use.name, use.span⟩ ∈ tokens
  declarations : ∀ declaration ∈ program.declarations, declaration.DeclaredIn tokens
  reads : ∀ use ∈ program.reads, DeclaredBefore program.declarations use.span.start use.name
  bounds : ∀ use body, (use, body) ∈ program.bounds →
    DeclaredBefore program.declarations use.span.start use.name ∨
      ∃ declaration ∈ body.declarations, declaration.name = use.name

/-! ## The order of the tokens -/

/-- The tokens lie between two offsets, one after the other, and none is empty. -/
def InOrder (low : Nat) (tokens : List Token) (high : Nat) : Prop :=
  match tokens with
  | [] => low ≤ high
  | token :: rest =>
      low ≤ token.span.start ∧ token.span.start < token.span.stop ∧
        InOrder token.span.stop rest high

namespace InOrder

variable {low high : Nat} {tokens : List Token}

theorem le (horder : InOrder low tokens high) : low ≤ high := by
  induction tokens generalizing low with
  | nil => exact horder
  | cons token rest ih =>
      obtain ⟨hlow, hlt, hrest⟩ := horder
      have hle := ih hrest
      omega

theorem mono {low' high' : Nat} (horder : InOrder low tokens high) (hlow : low' ≤ low)
    (hhigh : high ≤ high') : InOrder low' tokens high' := by
  induction tokens generalizing low low' with
  | nil => exact Nat.le_trans hlow (Nat.le_trans horder hhigh)
  | cons token rest ih =>
      obtain ⟨hle, hlt, hrest⟩ := horder
      exact ⟨Nat.le_trans hlow hle, hlt, ih hrest (Nat.le_refl _)⟩

theorem append_iff {others : List Token} :
    InOrder low (tokens ++ others) high ↔
      ∃ middle, InOrder low tokens middle ∧ InOrder middle others high := by
  induction tokens generalizing low with
  | nil =>
      constructor
      · intro horder
        exact ⟨low, Nat.le_refl low, horder⟩
      · rintro ⟨middle, hle, horder⟩
        exact horder.mono hle (Nat.le_refl high)
  | cons token rest ih =>
      simp only [List.cons_append, InOrder, ih]
      constructor
      · rintro ⟨hlow, hlt, middle, hrest, hothers⟩
        exact ⟨middle, ⟨hlow, hlt, hrest⟩, hothers⟩
      · rintro ⟨middle, ⟨hlow, hlt, hrest⟩, hothers⟩
        exact ⟨hlow, hlt, middle, hrest, hothers⟩

end InOrder

/-- The tokens of a text are in order. -/
theorem Tiles.inOrder {offset : Nat} {text : List Char} {tokens : List Token}
    (htiles : Tiles offset text tokens) :
    InOrder offset tokens (offset + Text.byteLength text) := by
  induction htiles with
  | done offset => exact Nat.le_add_right _ _
  | blank hblank hrest ih =>
      rw [Text.byteLength_cons, ← Nat.add_assoc]
      exact ih.mono (Nat.le_add_right _ _) (Nat.le_refl _)
  | token hwritten hends hrest ih =>
      have hpos := Text.byteLength_pos hwritten.ne_nil
      rw [Text.byteLength_append, ← Nat.add_assoc]
      exact ⟨Nat.le_refl _, by simp only; omega, ih⟩

/-! ## The order of the tree -/

/-- The names that the expression reads stand after the offset. -/
def Expression.After (low : Nat) (value : Expression) : Prop :=
  ∀ use ∈ value.names, low ≤ use.span.start

/-- The parts of a statement that read or declare names follow each other in the text, and
all lie between two offsets. -/
def Statement.Laid : Statement → Nat → Nat → Prop
  | sequence first second _, low, high =>
      ∃ middle, first.Laid low middle ∧ second.Laid middle high
  | declare _ value span, low, high =>
      value.After low ∧ low ≤ span.start ∧ span.start < span.stop ∧ span.stop ≤ high
  | assign _ value _, low, high => value.After low ∧ low ≤ high
  | print value _, low, high => value.After low ∧ low ≤ high
  | readInt _ _, low, high => low ≤ high
  | forLoop _ lower upper body span, low, high =>
      lower.After low ∧ low ≤ span.start ∧ span.start < lower.span.stop ∧
        upper.After lower.span.stop ∧ body.Laid lower.span.stop high

theorem Denotes.after {kind : TokenKind} {value : Expression} {low : Nat}
    (hvalue : Denotes kind value) (hlow : low ≤ value.span.start) : value.After low := by
  cases hvalue with
  | string text span => nofun
  | integer n span => nofun
  | word name span => exact List.forall_mem_singleton.mpr hlow

theorem Denotes.mem_of_names {kind : TokenKind} {value : Expression} (hvalue : Denotes kind value)
    {use : Mention} (huse : use ∈ value.names) :
    (⟨.word use.name, use.span⟩ : Token) = ⟨kind, value.span⟩ := by
  cases hvalue with
  | string text span => cases huse
  | integer n span => cases huse
  | word name span =>
      obtain rfl := List.mem_singleton.mp huse
      rfl

theorem Span.hull_of_le {a b : Span} (hstart : a.start ≤ b.start) (hstop : a.stop ≤ b.stop) :
    a.hull b = ⟨a.start, b.stop⟩ := by
  rw [hull, Nat.min_eq_left hstart, Nat.max_eq_right hstop]

/-- What the order of the tokens of a loop says about its parts. -/
theorem InOrder.forLoop {low high : Nat} {index : String} {from' to' : TokenKind}
    {start place equals lower middle upper last stop : Span} {inner trail : List Token}
    (horder : InOrder low
      (⟨.word "for", start⟩ :: ⟨.word index, place⟩ :: ⟨.equals, equals⟩ :: ⟨from', lower⟩ ::
        ⟨.word "to", middle⟩ :: ⟨to', upper⟩ :: ⟨.word "do", last⟩ ::
        (inner ++ trail ++ [⟨.word "end", stop⟩])) high) :
    start.hull stop = ⟨start.start, stop.stop⟩ ∧ low ≤ start.start ∧ start.start < lower.start ∧
      lower.start < lower.stop ∧ lower.stop ≤ upper.start ∧ InOrder lower.stop inner high := by
  simp only [InOrder, InOrder.append_iff] at horder
  obtain ⟨hlow, hstart, hplace, hplace', hequals, hequals', hlower, hlower', hmiddle, hmiddle',
    hupper, hupper', hlast, hlast', after, ⟨inside, hinner, htrail⟩, hstop, hstop', hhigh⟩ := horder
  have hinside := hinner.le
  have hafter := htrail.le
  exact ⟨Span.hull_of_le (by omega) (by omega), hlow, by omega, hlower', by omega,
    hinner.mono (by omega) (by omega)⟩

/-- A tree that is built from tokens in order is laid out in the text. -/
theorem Builds.laid {phrase : Phrase} {tokens : List Token} {statement : Statement}
    (hbuilds : Builds phrase tokens statement) {low high : Nat}
    (horder : InOrder low tokens high) : statement.Laid low high := by
  induction hbuilds generalizing low high with
  | print start hvalue =>
      simp only [InOrder] at horder
      exact ⟨hvalue.after (by omega), by omega⟩
  | declare start place equals hvalue =>
      simp only [InOrder] at horder
      rw [Span.hull_of_le (by omega) (by omega)]
      exact ⟨hvalue.after (by omega), by simp only; omega⟩
  | readInt name start place =>
      simp only [InOrder] at horder
      show low ≤ high
      omega
  | forLoop start place equals middle last stop hlower hupper hbody htrail ih =>
      obtain ⟨hhull, hlow, hstart, hvalue, hbound, hinner⟩ := horder.forLoop
      rw [hhull]
      exact ⟨hlower.after (by omega), hlow, by simp only; omega, hupper.after hbound, ih hinner⟩
  | assign start equals hname hvalue =>
      simp only [InOrder] at horder
      exact ⟨hvalue.after (by omega), by omega⟩
  | single hsimple ih => exact ih horder
  | andThen place hfirst hsecond hend ihfirst ihsecond =>
      obtain ⟨middle, hfront, hplace, hplace', hothers⟩ := InOrder.append_iff.mp horder
      exact ⟨middle, ihfirst hfront, ihsecond (hothers.mono (by omega) (Nat.le_refl high))⟩

/-- What is read in a tree is a word of its tokens. -/
theorem Builds.mem_word {phrase : Phrase} {tokens : List Token} {statement : Statement}
    (hbuilds : Builds phrase tokens statement) :
    ∀ use ∈ statement.uses, ⟨.word use.name, use.span⟩ ∈ tokens := by
  intro use huse
  induction hbuilds with
  | print start hvalue =>
      rw [Statement.uses_print] at huse
      simp [hvalue.mem_of_names huse]
  | declare start place equals hvalue =>
      rw [Statement.uses_declare] at huse
      simp [hvalue.mem_of_names huse]
  | readInt name start place => cases huse
  | forLoop start place equals middle last stop hlower hupper hbody htrail ih =>
      rcases Statement.mem_uses_forLoop.mp huse with huse | huse | huse
      · simp [hlower.mem_of_names huse]
      · simp [hupper.mem_of_names huse]
      · simp [ih huse]
  | assign start equals hname hvalue =>
      rw [Statement.uses_assign] at huse
      simp [hvalue.mem_of_names huse]
  | single hsimple ih => exact ih huse
  | andThen place hfirst hsecond hend ihfirst ihsecond =>
      rcases Statement.mem_uses_sequence.mp huse with huse | huse
      · simp [ihfirst huse]
      · simp [ihsecond huse]

theorem Mention.DeclaredIn.mono {declaration : Mention} {tokens others : List Token}
    (hdeclared : declaration.DeclaredIn tokens) (hpart : tokens <:+: others) :
    declaration.DeclaredIn others := by
  obtain ⟨keyword, start, place, equals, value, hkeyword, htokens, hspan⟩ := hdeclared
  exact ⟨keyword, start, place, equals, value, hkeyword, htokens.trans hpart, hspan⟩

/-- What is declared in a tree is declared by its tokens. -/
theorem Builds.declaredIn {phrase : Phrase} {tokens : List Token} {statement : Statement}
    (hbuilds : Builds phrase tokens statement) {low high : Nat}
    (horder : InOrder low tokens high) :
    ∀ declaration ∈ statement.declarations, declaration.DeclaredIn tokens := by
  intro declaration hdeclaration
  induction hbuilds generalizing low high with
  | print start hvalue => cases hdeclaration
  | declare start place equals hvalue =>
      simp only [InOrder] at horder
      obtain rfl := List.mem_singleton.mp hdeclaration
      exact ⟨"var", start, place, equals, _, .inl rfl, List.infix_rfl,
        Span.hull_of_le (by omega) (by omega)⟩
  | readInt name start place => cases hdeclaration
  | forLoop start place equals middle last stop hlower hupper hbody htrail ih =>
      obtain ⟨hhull, -, -, -, -, hinner⟩ := horder.forLoop
      rcases List.mem_cons.mp hdeclaration with rfl | hdeclaration
      · exact ⟨"for", start, place, equals, _, .inr rfl, ⟨[], _, rfl⟩, by rw [hhull]⟩
      · refine (ih hinner hdeclaration).mono ?_
        rw [List.append_assoc]
        exact (List.prefix_append _ _).isInfix.trans
          (List.suffix_append [_, _, _, _, _, _, _] _).isInfix
  | assign start equals hname hvalue => cases hdeclaration
  | single hsimple ih => exact ih horder hdeclaration
  | andThen place hfirst hsecond hend ihfirst ihsecond =>
      obtain ⟨middle, hfront, -, -, hothers⟩ := InOrder.append_iff.mp horder
      rcases List.mem_append.mp hdeclaration with hdeclaration | hdeclaration
      · exact (ihfirst hfront hdeclaration).mono (List.prefix_append _ _).isInfix
      · exact (ihsecond hothers hdeclaration).mono
          ((List.suffix_cons _ _).trans (List.suffix_append _ _)).isInfix

/-- The declarations of a statement lie where the statement does. -/
theorem Statement.Laid.declared {statement : Statement} {low high : Nat}
    (hlaid : statement.Laid low high) :
    low ≤ high ∧ ∀ declaration ∈ statement.declarations,
      declaration.span.start < declaration.span.stop ∧ declaration.span.stop ≤ high := by
  induction statement generalizing low high with
  | sequence first second span ihfirst ihsecond =>
      obtain ⟨middle, hfirst, hsecond⟩ := hlaid
      obtain ⟨hle, hdeclared⟩ := ihfirst hfirst
      obtain ⟨hle', hdeclared'⟩ := ihsecond hsecond
      refine ⟨Nat.le_trans hle hle', List.forall_mem_append.mpr ⟨fun declaration hmem => ?_,
        hdeclared'⟩⟩
      obtain ⟨hlt, hstop⟩ := hdeclared declaration hmem
      exact ⟨hlt, Nat.le_trans hstop hle'⟩
  | declare name value span =>
      obtain ⟨-, hlow, hlt, hhigh⟩ := hlaid
      exact ⟨by omega, List.forall_mem_singleton.mpr ⟨hlt, hhigh⟩⟩
  | assign name value span => exact ⟨hlaid.2, nofun⟩
  | print value span => exact ⟨hlaid.2, nofun⟩
  | readInt name span => exact ⟨hlaid, nofun⟩
  | forLoop index lower upper body span ih =>
      obtain ⟨-, hlow, hlt, -, hbody⟩ := hlaid
      obtain ⟨hle, hdeclared⟩ := ih hbody
      exact ⟨by omega, List.forall_mem_cons.mpr ⟨⟨hlt, hle⟩, hdeclared⟩⟩

/-! ## Known names -/

/-- All names that have a type are among the known ones. -/
def TypeEnv.Within (env : TypeEnv) (known : String → Prop) : Prop :=
  ∀ name, env name ≠ none → known name

section

variable {known : String → Prop} {env after : TypeEnv} {statement : Statement}

theorem TypeEnv.Within.mono {others : String → Prop} (hwithin : env.Within known)
    (hknown : ∀ name, known name → others name) : env.Within others :=
  fun name hname => hknown name (hwithin name hname)

theorem TypeEnv.Within.bind (hwithin : env.Within known) {name : String} (hname : known name)
    (type : ValueType) : (env.bind name type).Within known := by
  intro other hother
  by_cases heq : other = name
  · rw [heq]
    exact hname
  · rw [TypeEnv.bind, if_neg heq] at hother
    exact hwithin other hother

theorem TypeEnv.Within.withIndex (hwithin : env.Within known) {index : String}
    (hindex : known index) : (env.withIndex index).Within known := by
  unfold TypeEnv.withIndex
  split
  · exact hwithin
  · exact hwithin.bind hindex .int

/-- The names that have a type after a statement had one before, or the statement declares
them. -/
theorem Statement.Typed.within (htyped : Typed env statement after)
    (hwithin : env.Within known)
    (hdeclared : ∀ declaration ∈ statement.declarations, known declaration.name) :
    after.Within known := by
  induction htyped with
  | sequence span hfirst hsecond ihfirst ihsecond =>
      obtain ⟨hdeclared, hdeclared'⟩ := List.forall_mem_append.mp hdeclared
      exact ihsecond (ihfirst hwithin hdeclared) hdeclared'
  | declare span hvalue => exact hwithin.bind (hdeclared _ (List.mem_singleton_self _)) _
  | assign span hvalue hname => exact hwithin
  | print span hvalue => exact hwithin
  | readInt span hname => exact hwithin
  | forLoop span hlower hindex hbody hcounted hupper ih =>
      obtain ⟨hindex, hdeclared⟩ := List.forall_mem_cons.mp hdeclared
      exact ih (hwithin.withIndex hindex) hdeclared

/-- The names that an expression reads have types if it has one. -/
theorem Expression.HasType.names_known {value : Expression} {type : ValueType}
    (htype : value.HasType env type) (hwithin : env.Within known) :
    ∀ use ∈ value.names, known use.name := by
  cases htype with
  | string text span => nofun
  | integer n span => nofun
  | name span hname => exact List.forall_mem_singleton.mpr (hwithin _ (by rw [hname]; nofun))

end

/-! ## Names along a program -/

section

variable {all : List Mention} {low high : Nat} {env after : TypeEnv} {statement : Statement}

theorem DeclaredBefore.mono {name : String} (hdeclared : DeclaredBefore all low name)
    (hle : low ≤ high) : DeclaredBefore all high name := by
  obtain ⟨declaration, hmem, hname, hlt, hstop⟩ := hdeclared
  exact ⟨declaration, hmem, hname, hlt, Nat.le_trans hstop hle⟩

theorem Expression.HasType.declaredBefore {value : Expression} {type : ValueType}
    (htype : value.HasType env type) (hwithin : env.Within (DeclaredBefore all low))
    (hafter : value.After low) :
    ∀ use ∈ value.names, DeclaredBefore all use.span.start use.name :=
  fun use huse => (htype.names_known hwithin use huse).mono (hafter use huse)

/-- After a statement the names are declared before its end. -/
theorem Statement.Typed.within_declaredBefore (htyped : Typed env statement after)
    (hlaid : statement.Laid low high) (hall : statement.declarations ⊆ all)
    (hwithin : env.Within (DeclaredBefore all low)) :
    after.Within (DeclaredBefore all high) := by
  obtain ⟨hle, hdeclared⟩ := hlaid.declared
  refine htyped.within (hwithin.mono fun _ hname => hname.mono hle) fun declaration hmem => ?_
  obtain ⟨hlt, hstop⟩ := hdeclared declaration hmem
  exact ⟨declaration, hall hmem, rfl, hlt, hstop⟩

/-- Every name that is read is declared before, and in the bound of a loop it may also be
declared by the body. -/
theorem Statement.Typed.declaredBefore (htyped : Typed env statement after)
    (hlaid : statement.Laid low high) (hall : statement.declarations ⊆ all)
    (hwithin : env.Within (DeclaredBefore all low)) :
    (∀ use ∈ statement.reads, DeclaredBefore all use.span.start use.name) ∧
      ∀ use body, (use, body) ∈ statement.bounds →
        DeclaredBefore all use.span.start use.name ∨
          ∃ declaration ∈ body.declarations, declaration.name = use.name := by
  induction htyped generalizing low high with
  | sequence span hfirst hsecond ihfirst ihsecond =>
      obtain ⟨middle, hlaid, hlaid'⟩ := hlaid
      obtain ⟨hall, hall'⟩ := List.append_subset.mp hall
      obtain ⟨hreads, hbounds⟩ := ihfirst hlaid hall hwithin
      obtain ⟨hreads', hbounds'⟩ :=
        ihsecond hlaid' hall' (hfirst.within_declaredBefore hlaid hall hwithin)
      refine ⟨List.forall_mem_append.mpr ⟨hreads, hreads'⟩, fun use body hmem => ?_⟩
      rcases List.mem_append.mp hmem with hmem | hmem
      · exact hbounds use body hmem
      · exact hbounds' use body hmem
  | declare span hvalue => exact ⟨hvalue.declaredBefore hwithin hlaid.1, nofun⟩
  | assign span hvalue hname => exact ⟨hvalue.declaredBefore hwithin hlaid.1, nofun⟩
  | print span hvalue => exact ⟨hvalue.declaredBefore hwithin hlaid.1, nofun⟩
  | readInt span hname => exact ⟨nofun, nofun⟩
  | @forLoop _ _ index lower upper body _ span hlower hindex hbody hcounted hupper ih =>
      obtain ⟨hlow, hstart, hlt, hhigh, hlaid⟩ := hlaid
      obtain ⟨hhead, hall⟩ := List.cons_subset.mp hall
      have hinside : TypeEnv.Within _ (DeclaredBefore all lower.span.stop) :=
        (hwithin.mono fun _ hname => hname.mono (by omega)).withIndex
          ⟨_, hhead, rfl, hlt, Nat.le_refl _⟩
      obtain ⟨hreads, hbounds⟩ := ih hlaid hall hinside
      refine ⟨List.forall_mem_append.mpr ⟨hlower.declaredBefore hwithin hlow, hreads⟩,
        fun use inner hmem => ?_⟩
      rcases List.mem_append.mp hmem with hmem | hmem
      · -- The bound is typed after the body, so its name was known in front of the body or
        -- is declared there.
        obtain ⟨_, huse, heq⟩ := List.mem_map.mp hmem
        obtain ⟨rfl, rfl⟩ := Prod.mk.inj heq
        have hafter : TypeEnv.Within _ fun name => DeclaredBefore all lower.span.stop name ∨
            ∃ declaration ∈ body.declarations, declaration.name = name :=
          hbody.within (hinside.mono fun _ => .inl) fun declaration hdeclaration =>
            .inr ⟨declaration, hdeclaration, rfl⟩
        exact (hupper.names_known hafter _ huse).imp_left fun hname => hname.mono (hhigh _ huse)
      · exact hbounds use inner hmem

end

/-! ## Programs -/

/-- The tokens that a program is read from, in order, with the place where they end. -/
theorem Statement.builds_of_ofTokens {tokens : List Token} {program : Statement} {place : Span}
    (heof : ∀ token ∈ tokens, token.kind ≠ .eof)
    (hparse : Statement.ofTokens (tokens ++ [⟨.eof, place⟩]) = .ok program) :
    ∃ front trail, tokens = front ++ trail ∧ Builds .sequence front program := by
  obtain ⟨front, trail, htokens, hbuilds, -⟩ :=
    builds_of_parseStatement (Statement.ofStream_eq_ok.mp hparse)
  obtain ⟨last, hcut⟩ := TokenStream.tokens_cut_append heof [⟨.eof, place⟩] 0
  rw [TokenStream.ofList, hcut, List.append_nil] at htokens
  refine ⟨front, trail, ?_, hbuilds⟩
  simpa [TokenStream.cut] using htokens

/-- In the text of a program that compiles, every name is declared before it is read; for
the bound of a loop, in front of it or by the body of the loop. -/
theorem compile_orderedIn {source name : String} {m : CodeModule}
    (hcompile : compile source name = .ok m) :
    ∃ tokens program, Token.scan source = .ok tokens ∧
      Statement.ofTokens tokens = .ok program ∧ program.OrderedIn tokens := by
  obtain ⟨program, hsource, hmodule⟩ := bind_eq_ok.mp hcompile
  obtain ⟨found, hscan, hparse⟩ := bind_eq_ok.mp hsource
  rw [mapError_eq_ok] at hscan hparse
  obtain ⟨tokens, rfl, htiles⟩ := tiles_of_scanFrom hscan
  obtain ⟨front, trail, rfl, hbuilds⟩ := Statement.builds_of_ofTokens htiles.ne_eof hparse
  obtain ⟨high, horder, -⟩ := InOrder.append_iff.mp htiles.inOrder
  obtain ⟨env, htyped⟩ := Statement.typed_of_compile hmodule
  have hempty : TypeEnv.empty.Within (DeclaredBefore program.declarations 0) := nofun
  obtain ⟨hreads, hbounds⟩ :=
    htyped.declaredBefore (hbuilds.laid horder) (List.Subset.refl _) hempty
  refine ⟨_, program, hscan, hparse, ?_, ?_, hreads, hbounds⟩
  · intro use huse
    simp [hbuilds.mem_word use huse]
  · intro declaration hdeclaration
    refine (hbuilds.declaredIn horder declaration hdeclaration).mono ?_
    exact ((List.prefix_append front trail).trans (List.prefix_append _ _)).isInfix

/-- The program `var n = 2; for i = n to k do var k = i; print k end`. -/
def Statement.lateBound : Statement :=
  .sequence (.declare "n" (.integer 2 ⟨8, 9⟩) ⟨0, 9⟩)
    (.forLoop "i" (.name "n" ⟨19, 20⟩) (.name "k" ⟨24, 25⟩)
      (.sequence (.declare "k" (.name "i" ⟨37, 38⟩) ⟨29, 38⟩)
        (.print (.name "k" ⟨46, 47⟩) ⟨40, 47⟩) ⟨29, 47⟩) ⟨11, 51⟩) ⟨0, 51⟩

/-- The text of that program. -/
def lateBoundSource : String := "var n = 2; for i = n to k do var k = i; print k end"

/-- The names of that program are in order: the bound is declared by the body, and the
other names are declared before they are read. -/
theorem lateBound_orderedIn :
    (∃ m, compile lateBoundSource "test" = .ok m) ∧
      ∃ tokens, Token.scan lateBoundSource = .ok tokens ∧
        Statement.lateBound.OrderedIn tokens := by
  have hparse : Statement.ofSource lateBoundSource = .ok Statement.lateBound :=
    eq_ok_of_toOption (by decide +kernel)
  obtain ⟨m, hmodule⟩ : ∃ m, Statement.lateBound.compile "test" = .ok m :=
    exists_eq_ok_of_toOption (by decide +kernel)
  have hcompile : compile lateBoundSource "test" = .ok m :=
    bind_eq_ok.mpr ⟨_, hparse, hmodule⟩
  obtain ⟨tokens, program, hscan, htokens, hordered⟩ := compile_orderedIn hcompile
  have hsource : Statement.ofSource lateBoundSource = .ok program :=
    bind_eq_ok.mpr ⟨_, mapError_eq_ok.mpr hscan, mapError_eq_ok.mpr htokens⟩
  cases hparse.symm.trans hsource
  exact ⟨⟨m, hcompile⟩, tokens, hscan, hordered⟩

/-- A name may be read before it is declared: in `for i = 0 to x do var x = 5 end` no
declaration of `x` begins before the bound of the loop. -/
theorem compile_accepts_late_declaration :
    ¬ ∀ (source name : String) (m : CodeModule) (program : Statement),
      compile source name = .ok m → Statement.ofSource source = .ok program →
      ∀ use ∈ program.uses, ∃ declaration ∈ program.declarations,
        declaration.name = use.name ∧ declaration.span.start < use.span.start := by
  intro hall
  have hparse : Statement.ofSource "for i = 0 to x do var x = 5 end" =
      .ok (.forLoop "i" (.integer 0 ⟨8, 9⟩) (.name "x" ⟨13, 14⟩)
        (.declare "x" (.integer 5 ⟨26, 27⟩) ⟨18, 27⟩) ⟨0, 31⟩) :=
    eq_ok_of_toOption (by decide +kernel)
  obtain ⟨m, hmodule⟩ : ∃ m, Statement.compile (.forLoop "i" (.integer 0 ⟨8, 9⟩)
      (.name "x" ⟨13, 14⟩) (.declare "x" (.integer 5 ⟨26, 27⟩) ⟨18, 27⟩) ⟨0, 31⟩) "test" = .ok m :=
    exists_eq_ok_of_toOption (by decide +kernel)
  have hcompile : compile "for i = 0 to x do var x = 5 end" "test" = .ok m :=
    bind_eq_ok.mpr ⟨_, hparse, hmodule⟩
  exact absurd (hall _ _ m _ hcompile hparse) (by decide)

end SlotLang
