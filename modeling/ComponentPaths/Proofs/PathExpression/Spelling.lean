/-
Expressions whose value is not known, and their two spellings.

The value of a variable, a property, a constant of a class or a call is known only
when the code runs. `Expr` is the syntax of these expressions. A `Spelling` says how
the parts of it are written that have more than one form: `written` is the code as
it is in a file, `kept` is what a placeholder has of it.

Both are spelled by one function, so they differ in those parts only. The kept
text is never longer, and where one part of it is shorter no other part makes up for
that (`Trims.append`), so the two are the same just if no part is lost
(`trims_spell`). What is lost is the mark of a nullsafe fetch, the dots of an
unpacked argument, and the mark of a qualified function or of a relative name.

What is kept is sealed (`sealed_spell`), so a placeholder for it is one piece of any
path, and gives the code back.
-/
import ComponentPaths.PathExpression.Mark
import ComponentPaths.Proofs.Symbolic.Placeholders

namespace ComponentPaths

-- ============================================================= placeholders

namespace Symbolic

variable {code : Text}

/-- A placeholder for sealed code is that one piece. -/
theorem pieces_placeholder (h : Sealed code) :
    pieces (placeholder code) = [.placeholder code] := by
  have hchunks := chunks_placeholder h []
  rw [List.append_nil] at hchunks
  show (chunks (placeholder code)).map Chunk.toPiece = _
  rw [hchunks, List.map_cons, Chunk.toPiece, holeInner_placeholder]
  rfl

/-- A placeholder is one, if its code is sealed. -/
theorem singlePlaceholder?_placeholder (h : Sealed code) :
    singlePlaceholder? (placeholder code) = some code := by
  unfold singlePlaceholder?
  rw [pieces_placeholder h]

theorem isLiteral_placeholder (h : Sealed code) : isLiteral (placeholder code) = false := by
  unfold isLiteral
  rw [pieces_placeholder h]
  rfl

/-- As code, it is the code in it. -/
theorem toExpression?_placeholder (h : Sealed code) :
    toExpression? (placeholder code) = some code := by
  unfold toExpression?
  rw [pieces_placeholder h]
  exact congrArg some List.intercalate_singleton

end Symbolic

namespace Code

open Symbolic (Sealed)

-- =================================================================== syntax

/-- The characters of a word: letters, digits, the underscore, and all beyond ASCII. -/
def isWordPart (c : Char) : Bool :=
  c.isAlphanum || c == '_' || 0x80 ≤ c.toNat

/-- A name without qualification. It does not start with a digit. -/
structure Word where
  first : Char
  rest : Text
  starts : isWordPart first = true ∧ first.isDigit = false
  continues : rest.all isWordPart = true

/-- The text of a word. -/
def Word.text (w : Word) : Text :=
  w.first :: w.rest

/-- Where a name is looked up: in the imports of the file, from the top, or in the
current namespace. -/
inductive Form where
  | plain
  | full
  | relative
  deriving DecidableEq, Repr

/-- The name of a class or a function. -/
structure Name where
  form : Form
  first : Word
  rest : List Word

/-- A name without its mark. -/
def Name.joined (n : Name) : Text :=
  Text.join ['\\'] ((n.first :: n.rest).map Word.text)

/-- A name with the mark of its form. -/
def Name.spell (mark : Form → Text) (n : Name) : Text :=
  mark n.form ++ n.joined

/-- How a member is fetched. -/
inductive Arrow where
  | plain
  | nullsafe
  deriving DecidableEq, Repr

/-- How an argument is passed. -/
inductive Passing where
  | single
  | unpacked
  deriving DecidableEq, Repr

/-- The expressions whose value is not known. -/
inductive Expr where
  | var (name : Word)
  | property (base : Expr) (arrow : Arrow) (name : Word)
  | method (base : Expr) (arrow : Arrow) (name : Word) (args : List (Passing × Expr))
  | staticProperty (owner : Name) (name : Word)
  | classConstant (owner : Name) (name : Word)
  | staticCall (owner : Name) (name : Word) (args : List (Passing × Expr))
  | call (function : Name) (args : List (Passing × Expr))

mutual

/-- Neither the configuration variable nor a call that drops levels of a path is in
the expression: these two are known. -/
def Expr.isUnknown : Expr → Bool
  | .var name => name.text != Mark.configVariable
  | .property base _ _ => base.isUnknown
  | .method base _ _ args => base.isUnknown && areUnknown args
  | .staticProperty _ _ => true
  | .classConstant _ _ => true
  | .staticCall _ _ args => areUnknown args
  | .call function args => function.joined.map Char.toLower != "dirname" && areUnknown args

/-- Whether no argument has a value that is known. -/
def areUnknown : List (Passing × Expr) → Bool
  | [] => true
  | (_, e) :: rest => e.isUnknown && areUnknown rest

end

-- ================================================================= spelling

/-- The texts for the parts of an expression that have more than one form. -/
structure Spelling where
  arrow : Arrow → Text
  passing : Passing → Text
  className : Form → Text
  functionName : Form → Text

/-- The mark of a name. -/
def Form.mark : Form → Text
  | .plain => []
  | .full => ['\\']
  | .relative => "namespace\\"

/-- Expressions as they are written in a file. -/
def written : Spelling where
  arrow
    | .plain => "->"
    | .nullsafe => "?->"
  passing
    | .single => []
    | .unpacked => "..."
  className := Form.mark
  functionName := Form.mark

/-- Expressions as placeholders keep them. -/
def kept : Spelling where
  arrow := fun _ => "->"
  passing := fun _ => []
  className
    | .full => ['\\']
    | _ => []
  functionName := fun _ => []

/-- The arguments of a call, in parentheses. -/
def inCall (args : List Text) : Text :=
  "(" ++ Text.join ", " args ++ ")"

mutual

/-- The text of an expression. -/
def Expr.spell (s : Spelling) : Expr → Text
  | .var name => '$' :: name.text
  | .property base arrow name => base.spell s ++ s.arrow arrow ++ name.text
  | .method base arrow name args =>
    base.spell s ++ s.arrow arrow ++ name.text ++ inCall (spellArgs s args)
  | .staticProperty owner name => owner.spell s.className ++ "::$" ++ name.text
  | .classConstant owner name => owner.spell s.className ++ "::" ++ name.text
  | .staticCall owner name args =>
    owner.spell s.className ++ "::" ++ name.text ++ inCall (spellArgs s args)
  | .call function args => function.spell s.functionName ++ inCall (spellArgs s args)

/-- The texts of arguments. -/
def spellArgs (s : Spelling) : List (Passing × Expr) → List Text
  | [] => []
  | (passing, e) :: rest => (s.passing passing ++ e.spell s) :: spellArgs s rest

end

mutual

/-- Nothing in the expression is lost: no nullsafe fetch, no unpacked argument, no
mark of a function, and no relative name. -/
def Expr.isExact : Expr → Bool
  | .var _ => true
  | .property base arrow _ => base.isExact && arrow == .plain
  | .method base arrow _ args => base.isExact && arrow == .plain && areExact args
  | .staticProperty owner _ => owner.form != .relative
  | .classConstant owner _ => owner.form != .relative
  | .staticCall owner _ args => owner.form != .relative && areExact args
  | .call function args => function.form == .plain && areExact args

/-- Whether nothing in the arguments is lost. -/
def areExact : List (Passing × Expr) → Bool
  | [] => true
  | (passing, e) :: rest => passing == .single && e.isExact && areExact rest

end

/-- A text that is another one, or a shorter one in its place. -/
structure Trims (exact : Bool) (short long : Text) : Prop where
  length_le : short.length ≤ long.length
  eq_iff : short = long ↔ exact = true

namespace Trims

variable {x y : Bool} {short long short' long' : Text}

theorem refl (t : Text) : Trims true t t :=
  ⟨Nat.le_refl _, by simp⟩

/-- What is lost in one part is not made up for by another. -/
theorem append (h : Trims x short long) (h' : Trims y short' long') :
    Trims (x && y) (short ++ short') (long ++ long') := by
  refine ⟨?_, ?_⟩
  · have := h.length_le
    have := h'.length_le
    simp only [List.length_append]
    omega
  · rw [Bool.and_eq_true, ← h.eq_iff, ← h'.eq_iff]
    constructor
    · intro heq
      have hlength := congrArg List.length heq
      simp only [List.length_append] at hlength
      have := h.length_le
      have := h'.length_le
      exact List.append_inj heq (by omega)
    · rintro ⟨rfl, rfl⟩
      rfl

theorem append_right (h : Trims x short long) (t : Text) : Trims x (short ++ t) (long ++ t) := by
  have happ := h.append (.refl t)
  rwa [Bool.and_true] at happ

theorem append_left (h : Trims x short long) (t : Text) : Trims x (t ++ short) (t ++ long) := by
  have happ := (Trims.refl t).append h
  rwa [Bool.true_and] at happ

end Trims

/-- Of an arrow, the nullsafe mark is lost. -/
theorem trims_arrow (arrow : Arrow) :
    Trims (arrow == .plain) (kept.arrow arrow) (written.arrow arrow) := by
  cases arrow <;> exact ⟨by decide, by decide⟩

/-- Of an argument, the mark of unpacking is lost. -/
theorem trims_passing (passing : Passing) :
    Trims (passing == .single) (kept.passing passing) (written.passing passing) := by
  cases passing <;> exact ⟨by decide, by decide⟩

/-- Of the name of a class, only the mark of a relative one is lost. -/
theorem trims_className (n : Name) :
    Trims (n.form != .relative) (n.spell kept.className) (n.spell written.className) := by
  have hmark : ∀ form : Form,
      Trims (form != .relative) (kept.className form) (written.className form) := by
    intro form
    cases form <;> exact ⟨by decide, by decide⟩
  exact (hmark n.form).append_right _

/-- Of the name of a function, every mark is. -/
theorem trims_functionName (n : Name) :
    Trims (n.form == .plain) (n.spell kept.functionName) (n.spell written.functionName) := by
  have hmark : ∀ form : Form,
      Trims (form == .plain) (kept.functionName form) (written.functionName form) := by
    intro form
    cases form <;> exact ⟨by decide, by decide⟩
  exact (hmark n.form).append_right _

/-- Arguments are spelled one after the other, with commas between them. -/
theorem join_spellArgs (s : Spelling) (passing : Passing) (e : Expr) (next : Passing × Expr)
    (rest : List (Passing × Expr)) :
    Text.join ", " (spellArgs s ((passing, e) :: next :: rest))
      = s.passing passing ++ e.spell s ++ ", " ++ Text.join ", " (spellArgs s (next :: rest)) :=
  List.intercalate_cons_of_ne_nil (List.cons_ne_nil _ _)

mutual

/-- The kept text of an expression is the written one just if nothing is lost. -/
theorem trims_spell (e : Expr) : Trims e.isExact (e.spell kept) (e.spell written) := by
  match e with
  | .var name => exact .refl _
  | .property base arrow name =>
      exact ((trims_spell base).append (trims_arrow arrow)).append_right _
  | .method base arrow name args =>
      exact (((trims_spell base).append (trims_arrow arrow)).append_right _).append
        (trims_inCall args)
  | .staticProperty owner name =>
      exact ((trims_className owner).append_right _).append_right _
  | .classConstant owner name =>
      exact ((trims_className owner).append_right _).append_right _
  | .staticCall owner name args =>
      exact (((trims_className owner).append_right _).append_right _).append (trims_inCall args)
  | .call function args => exact (trims_functionName function).append (trims_inCall args)

/-- The arguments of a call lose what each of them loses. -/
theorem trims_inCall (args : List (Passing × Expr)) :
    Trims (areExact args) (inCall (spellArgs kept args)) (inCall (spellArgs written args)) :=
  ((trims_join args).append_left _).append_right _

theorem trims_join (args : List (Passing × Expr)) :
    Trims (areExact args) (Text.join ", " (spellArgs kept args))
      (Text.join ", " (spellArgs written args)) := by
  match args with
  | [] => exact .refl _
  | [(passing, e)] =>
      have hfirst := (trims_passing passing).append (trims_spell e)
      simpa [areExact, spellArgs, Text.join] using hfirst
  | (passing, e) :: next :: rest =>
      have hfirst := (trims_passing passing).append (trims_spell e)
      have hall := (hfirst.append_right ", ").append (trims_join (next :: rest))
      rw [join_spellArgs, join_spellArgs]
      exact hall

end

-- ================================================================ sealed code

theorem not_isWordPart {c : Char} (h : c ∈ ['\'', '"', '{', '}', '\\']) :
    isWordPart c = false := by
  simp only [List.mem_cons, List.not_mem_nil, or_false] at h
  rcases h with rfl | rfl | rfl | rfl | rfl <;> decide

/-- Words open nothing and close nothing. -/
theorem sealed_of_isWordPart {t : Text} (h : ∀ c ∈ t, isWordPart c = true) : Sealed t := by
  induction t with
  | nil => rfl
  | cons c t ih =>
      have hc := h c List.mem_cons_self
      have hne : ∀ d ∈ ['\'', '"', '{', '}', '\\'], c ≠ d := by
        rintro d hd rfl
        rw [not_isWordPart hd] at hc
        cases hc
      have hstep : (Symbolic.Scan.code 0).step c = .code 0 := by
        simp only [List.forall_mem_cons] at hne
        simp [Symbolic.Scan.step, hne.1, hne.2.1, hne.2.2.1, hne.2.2.2.1]
      have hrest := ih fun d hd => h d (List.mem_cons_of_mem _ hd)
      unfold Symbolic.Sealed Symbolic.Scan.inside
      rw [hstep, if_neg (by simp)]
      exact hrest

theorem Word.sealed (w : Word) : Sealed w.text := by
  refine sealed_of_isWordPart fun c hc => ?_
  rcases List.mem_cons.1 hc with rfl | hc
  · exact w.starts.1
  · exact List.all_eq_true.1 w.continues c hc

theorem Name.sealed (n : Name) : Sealed n.joined := by
  refine Symbolic.sealed_join (by decide) fun t ht => ?_
  obtain ⟨w, -, rfl⟩ := List.mem_map.1 ht
  exact w.sealed

theorem Name.sealed_className (n : Name) : Sealed (n.spell kept.className) := by
  have hmark : ∀ form : Form, Sealed (kept.className form) := by
    intro form
    cases form <;> decide
  exact (hmark n.form).append n.sealed

mutual

/-- The kept text of an expression can be put in a placeholder. -/
theorem sealed_spell (e : Expr) : Sealed (e.spell kept) := by
  have harrow : Sealed ("->" : Text) := by decide
  have hcolons : Sealed ("::" : Text) := by decide
  match e with
  | .var name => exact (by decide : Sealed ['$']).append name.sealed
  | .property base arrow name => exact ((sealed_spell base).append harrow).append name.sealed
  | .method base arrow name args =>
      exact (((sealed_spell base).append harrow).append name.sealed).append (sealed_inCall args)
  | .staticProperty owner name =>
      exact (owner.sealed_className.append (by decide)).append name.sealed
  | .classConstant owner name =>
      exact (owner.sealed_className.append hcolons).append name.sealed
  | .staticCall owner name args =>
      exact ((owner.sealed_className.append hcolons).append name.sealed).append
        (sealed_inCall args)
  | .call function args => exact function.sealed.append (sealed_inCall args)

/-- The arguments of a call are sealed, -/
theorem sealed_inCall (args : List (Passing × Expr)) : Sealed (inCall (spellArgs kept args)) := by
  have hargs := Symbolic.sealed_join (by decide : Sealed (", " : Text)) (sealed_spellArgs args)
  exact (Symbolic.Sealed.append (by decide) hargs).append (by decide)

/-- because each of them is. -/
theorem sealed_spellArgs (args : List (Passing × Expr)) :
    ∀ code ∈ spellArgs kept args, Sealed code := by
  match args with
  | [] => exact fun code hcode => (by cases hcode)
  | (passing, e) :: rest =>
      rw [spellArgs]
      intro code hcode
      rcases List.mem_cons.1 hcode with rfl | hcode
      · exact sealed_spell e
      · exact sealed_spellArgs rest code hcode

end

end Code

end ComponentPaths
