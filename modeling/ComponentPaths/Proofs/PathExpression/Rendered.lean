/-
The code in a placeholder, and the code it is for.

An expression whose value is not known contributes a placeholder, and the code in it
is put together again from the dump. What a dump has for an expression is said by
`Expr.Dumped`, for every version of it and whatever the positions are. That the code
is the kept text is an induction over the syntax: the dump says what the children of
a node are (`Stands`), and the placeholder of an operand gives back the code of the
operand (`render_of_kind`).

So the code in a placeholder is the code of the file for some expressions, and not for
others. A nullsafe fetch comes out as a plain one, and an unpacked argument as the
array itself (`nullsafe_lost`).
-/
import ComponentPaths.PathExpression.Find
import ComponentPaths.Proofs.Dump.Children
import ComponentPaths.Proofs.PathExpression.Rules
import ComponentPaths.Proofs.PathExpression.Spelling

namespace ComponentPaths.Code

open Symbolic (placeholder)
open Dump (Members Stands field? stringField?)

-- ==================================================================== dumps

/-- An object for a node of a type, with one member for each key. -/
structure IsObject (type : Text) (m : Members) : Prop where
  type : stringField? m "nodeType" = some type
  keys : (m.map Prod.fst).Nodup

theorem IsObject.isNode {type : Text} {m : Members} (h : IsObject type m) :
    Dump.isNode m = true := by
  obtain ⟨value, hvalue, -⟩ := Option.bind_eq_some_iff.1 h.type
  unfold Dump.isNode
  rw [hvalue]
  rfl

/-- A member is an object of some sort. -/
def Has (m : Members) (key : Text) (sort : Members → Prop) : Prop :=
  ∃ x, field? m key = some (.object x) ∧ sort x

/-- A member is a list of objects of some sort. -/
def HasList (m : Members) (key : Text) (sort : List Members → Prop) : Prop :=
  ∃ objs, field? m key = some (.array (objs.map .object)) ∧ sort objs

/-- The object of a word. -/
def Word.Dumped (type : Text) (w : Word) (m : Members) : Prop :=
  IsObject type m ∧ field? m "name" = some (.string w.text)

/-- The dump of a word, as a node of some type. -/
def Word.dump (type : Text) (w : Word) : Json :=
  .object [("nodeType", .string type), ("name", .string w.text)]

/-- The type of the object of a name. -/
def Form.type : Form → Text
  | .plain => "Name"
  | .full => "Name_FullyQualified"
  | .relative => "Name_Relative"

/-- The object of a name, which has its text, or in older dumps its parts. -/
def Name.Dumped (n : Name) (m : Members) : Prop :=
  IsObject n.form.type m
    ∧ (field? m "name" = some (.string n.joined)
      ∨ field? m "name" = none
        ∧ field? m "parts" = some (.array ((n.first :: n.rest).map fun w => .string w.text)))

/-- The dump of a name. -/
def Name.dump (n : Name) : Json :=
  .object [("nodeType", .string n.form.type), ("name", .string n.joined)]

/-- The type of the object of an expression. -/
def Expr.type : Expr → Text
  | .var _ => "Expr_Variable"
  | .property _ .plain _ => "Expr_PropertyFetch"
  | .property _ .nullsafe _ => "Expr_NullsafePropertyFetch"
  | .method _ .plain _ _ => "Expr_MethodCall"
  | .method _ .nullsafe _ _ => "Expr_NullsafeMethodCall"
  | .staticProperty _ _ => "Expr_StaticPropertyFetch"
  | .classConstant _ _ => "Expr_ClassConstFetch"
  | .staticCall _ _ _ => "Expr_StaticCall"
  | .call _ _ => "Expr_FuncCall"

mutual

/-- The object that a dump has for an expression. What else is in it, positions
above all, is left open. -/
def Expr.Dumped : Expr → Members → Prop
  | .var name, m =>
    IsObject (Expr.var name).type m ∧ field? m "name" = some (.string name.text)
  | .property base arrow name, m =>
    IsObject (Expr.property base arrow name).type m ∧ Has m "var" (fun x => base.Dumped x)
      ∧ Has m "name" (name.Dumped "Identifier")
  | .method base arrow name args, m =>
    IsObject (Expr.method base arrow name args).type m ∧ Has m "var" (fun x => base.Dumped x)
      ∧ Has m "name" (name.Dumped "Identifier")
      ∧ HasList m "args" (fun objs => AreDumped args objs)
  | .staticProperty owner name, m =>
    IsObject (Expr.staticProperty owner name).type m ∧ Has m "class" owner.Dumped
      ∧ Has m "name" (name.Dumped "VarLikeIdentifier")
  | .classConstant owner name, m =>
    IsObject (Expr.classConstant owner name).type m ∧ Has m "class" owner.Dumped
      ∧ Has m "name" (name.Dumped "Identifier")
  | .staticCall owner name args, m =>
    IsObject (Expr.staticCall owner name args).type m ∧ Has m "class" owner.Dumped
      ∧ Has m "name" (name.Dumped "Identifier")
      ∧ HasList m "args" (fun objs => AreDumped args objs)
  | .call function args, m =>
    IsObject (Expr.call function args).type m ∧ Has m "name" function.Dumped
      ∧ HasList m "args" (fun objs => AreDumped args objs)

/-- The dumps of arguments, one for each. -/
def AreDumped : List (Passing × Expr) → List Members → Prop
  | [], objs => objs = []
  | (passing, e) :: rest, objs =>
    ∃ first others, objs = first :: others ∧ IsObject "Arg" first
      ∧ field? first "unpack" = some (.bool (passing == .unpacked))
      ∧ Has first "value" (fun x => e.Dumped x) ∧ AreDumped rest others

end

mutual

/-- The object of an expression without any positions. -/
def Expr.dump : Expr → Members
  | .var name => [("nodeType", .string "Expr_Variable"), ("name", .string name.text)]
  | .property base arrow name =>
    [("nodeType", .string (Expr.property base arrow name).type), ("var", .object base.dump),
      ("name", name.dump "Identifier")]
  | .method base arrow name args =>
    [("nodeType", .string (Expr.method base arrow name args).type), ("var", .object base.dump),
      ("name", name.dump "Identifier"), ("args", .array ((dumpArgs args).map .object))]
  | .staticProperty owner name =>
    [("nodeType", .string "Expr_StaticPropertyFetch"), ("class", owner.dump),
      ("name", name.dump "VarLikeIdentifier")]
  | .classConstant owner name =>
    [("nodeType", .string "Expr_ClassConstFetch"), ("class", owner.dump),
      ("name", name.dump "Identifier")]
  | .staticCall owner name args =>
    [("nodeType", .string "Expr_StaticCall"), ("class", owner.dump),
      ("name", name.dump "Identifier"), ("args", .array ((dumpArgs args).map .object))]
  | .call function args =>
    [("nodeType", .string "Expr_FuncCall"), ("name", function.dump),
      ("args", .array ((dumpArgs args).map .object))]

/-- A dump for each argument. -/
def dumpArgs : List (Passing × Expr) → List Members
  | [] => []
  | (passing, e) :: rest =>
    [("nodeType", .string "Arg"), ("value", .object e.dump),
      ("unpack", .bool (passing == .unpacked))] :: dumpArgs rest

end

theorem has_word {m : Members} {key type : Text} {w : Word}
    (h : field? m key = some (w.dump type)) : Has m key (w.Dumped type) :=
  ⟨_, h, ⟨rfl, by simp⟩, rfl⟩

theorem has_name {m : Members} {key : Text} {n : Name} (h : field? m key = some n.dump) :
    Has m key n.Dumped :=
  ⟨_, h, ⟨rfl, by simp⟩, Or.inl rfl⟩

mutual

/-- Every expression can be dumped. -/
theorem dumped_dump (e : Expr) : e.Dumped e.dump := by
  match e with
  | .var name =>
      rw [Expr.Dumped]
      exact ⟨⟨rfl, by simp [Expr.dump]⟩, rfl⟩
  | .property base arrow name =>
      rw [Expr.Dumped]
      exact ⟨⟨rfl, by simp [Expr.dump]⟩, ⟨_, rfl, dumped_dump base⟩, has_word rfl⟩
  | .method base arrow name args =>
      rw [Expr.Dumped]
      exact ⟨⟨rfl, by simp [Expr.dump]⟩, ⟨_, rfl, dumped_dump base⟩, has_word rfl, _, rfl,
        areDumped_dumpArgs args⟩
  | .staticProperty owner name | .classConstant owner name =>
      rw [Expr.Dumped]
      exact ⟨⟨rfl, by simp [Expr.dump]⟩, has_name rfl, has_word rfl⟩
  | .staticCall owner name args =>
      rw [Expr.Dumped]
      exact ⟨⟨rfl, by simp [Expr.dump]⟩, has_name rfl, has_word rfl, _, rfl,
        areDumped_dumpArgs args⟩
  | .call function args =>
      rw [Expr.Dumped]
      exact ⟨⟨rfl, by simp [Expr.dump]⟩, has_name rfl, _, rfl, areDumped_dumpArgs args⟩

/-- And the arguments have theirs. -/
theorem areDumped_dumpArgs (args : List (Passing × Expr)) : AreDumped args (dumpArgs args) := by
  match args with
  | [] => rfl
  | (passing, e) :: rest =>
      rw [AreDumped]
      exact ⟨_, _, rfl, ⟨rfl, by simp⟩, rfl, ⟨_, rfl, dumped_dump e⟩, areDumped_dumpArgs rest⟩

end

/-- The dump of an expression is an object of its type. -/
theorem Expr.Dumped.isObject {e : Expr} {m : Members} (h : e.Dumped m) : IsObject e.type m := by
  cases e with
  | var _ | property _ _ _ | method _ _ _ _ | staticProperty _ _ | classConstant _ _
  | staticCall _ _ _ | call _ _ =>
      rw [Expr.Dumped] at h
      exact h.1

/-- Every argument is a node. -/
theorem AreDumped.isNode {args : List (Passing × Expr)} {objs : List Members}
    (h : AreDumped args objs) : ∀ m ∈ objs, Dump.isNode m = true := by
  induction args generalizing objs with
  | nil =>
      rw [AreDumped] at h
      subst h
      exact fun m hm => (by cases hm)
  | cons arg rest ih =>
      rw [AreDumped] at h
      obtain ⟨first, others, rfl, hobj, -, -, hothers⟩ := h
      intro m hm
      rcases List.mem_cons.1 hm with rfl | hm
      · exact hobj.isNode
      · exact ih hothers m hm

-- ==================================================================== kinds

/-- A word is read from its dump, -/
theorem nameField?_word {m : Members} {key type : Text} {w : Word}
    (h : Has m key (w.Dumped type)) (htype : type = "Identifier" ∨ type = "VarLikeIdentifier") :
    Dump.nameField? m key = some w.text := by
  obtain ⟨x, hx, hobj, hname⟩ := h
  have htext : Dump.nameText? x = some w.text := by
    unfold Dump.nameText?
    rw [hname]
  unfold Dump.nameField?
  rw [hx]
  show Dump.nameOf? x = some w.text
  unfold Dump.nameOf?
  rw [hobj.type, htext]
  rcases htype with rfl | rfl <;> rfl

theorem Name.Dumped.nameText? {n : Name} {m : Members} (h : n.Dumped m) :
    Dump.nameText? m = some n.joined := by
  unfold Dump.nameText?
  rcases h.2 with hname | ⟨hname, hparts⟩
  · rw [hname]
  · rw [hname, hparts]
    show some (Text.join ['\\'] _) = some n.joined
    rw [List.filterMap_map]
    congr 2
    exact congrFun List.filterMap_eq_map _

/-- and so is the name of a class, with its mark. -/
theorem nameField?_name {m : Members} {key : Text} {n : Name} (h : Has m key n.Dumped) :
    Dump.nameField? m key = some (n.spell kept.className) := by
  obtain ⟨x, hx, hdumped⟩ := h
  unfold Dump.nameField?
  rw [hx]
  show Dump.nameOf? x = _
  unfold Dump.nameOf? Name.spell
  rw [hdumped.1.type, hdumped.nameText?]
  cases n.form <;> rfl

theorem Name.exists_joined (n : Name) : ∃ t, n.joined = n.first.first :: t := by
  unfold Name.joined Text.join
  rw [List.map_cons]
  by_cases hrest : n.rest.map Word.text = []
  · rw [hrest, List.intercalate_singleton]
    exact ⟨_, rfl⟩
  · rw [List.intercalate_cons_of_ne_nil hrest]
    exact ⟨_, rfl⟩

/-- A function loses its mark, and nothing else. -/
theorem Name.unqualified_kept (n : Name) :
    Dump.unqualified (n.spell kept.className) = n.joined := by
  have hfirst : Dump.unqualified n.joined = n.joined := by
    obtain ⟨t, ht⟩ := n.exists_joined
    have hne : n.first.first ≠ '\\' := by
      intro heq
      have hpart := n.first.starts.1
      rw [heq, not_isWordPart (by decide)] at hpart
      cases hpart
    unfold Dump.unqualified
    rw [ht]
    exact List.dropWhile_cons_of_neg (by simpa using hne)
  unfold Name.spell
  cases n.form <;> exact hfirst

theorem kindOf_arg (m : Members) : Dump.kindOf "Arg" m = .arg := by
  simp [Dump.kindOf, Dump.kinds, Dump.expressionKinds, Dump.scalarKinds, Dump.statementKinds,
    Dump.partKinds, List.lookup_cons]

/-- The kind of the node of an expression. -/
def Expr.kind : Expr → Arena.Kind
  | .var name => .variableRef (some name.text)
  | .property _ _ name => .propertyFetch (some name.text)
  | .method _ _ name _ => .methodCall (some name.text)
  | .staticProperty owner name =>
    .staticPropertyFetch (some (owner.spell kept.className)) (some name.text)
  | .classConstant owner name =>
    .classConstFetch (some (owner.spell kept.className)) (some name.text)
  | .staticCall owner name _ =>
    .staticCall (some (owner.spell kept.className)) (some name.text)
  | .call function _ => .funcCall (some function.joined)

/-- A dump is lowered to a node of the kind of its expression. -/
theorem Expr.Dumped.kindOf {e : Expr} {m : Members} (h : e.Dumped m) :
    Dump.kindOf (Dump.typeOf m) m = e.kind := by
  have htype : Dump.typeOf m = e.type := by
    unfold Dump.typeOf
    rw [h.isObject.type]
    rfl
  rw [htype]
  cases e with
  | var name =>
      rw [Expr.Dumped] at h
      show Arena.Kind.variableRef ((field? m "name").bind Json.asString?) = _
      rw [h.2]
      rfl
  | property base arrow name =>
      rw [Expr.Dumped] at h
      have hname := nameField?_word h.2.2 (Or.inl rfl)
      cases arrow <;> exact congrArg Arena.Kind.propertyFetch hname
  | method base arrow name args =>
      rw [Expr.Dumped] at h
      have hname := nameField?_word h.2.2.1 (Or.inl rfl)
      cases arrow <;> exact congrArg Arena.Kind.methodCall hname
  | staticProperty owner name =>
      rw [Expr.Dumped] at h
      have hname := nameField?_word h.2.2 (Or.inr rfl)
      exact congrArg₂ Arena.Kind.staticPropertyFetch (nameField?_name h.2.1) hname
  | classConstant owner name =>
      rw [Expr.Dumped] at h
      have hname := nameField?_word h.2.2 (Or.inl rfl)
      exact congrArg₂ Arena.Kind.classConstFetch (nameField?_name h.2.1) hname
  | staticCall owner name args =>
      rw [Expr.Dumped] at h
      have hname := nameField?_word h.2.2.1 (Or.inl rfl)
      exact congrArg₂ Arena.Kind.staticCall (nameField?_name h.2.1) hname
  | call function args =>
      rw [Expr.Dumped] at h
      show Arena.Kind.funcCall ((Dump.nameField? m "name").map Dump.unqualified) = _
      rw [nameField?_name h.2.1, Option.map_some, Name.unqualified_kept]
      rfl

-- ============================================================ contributions

section Contributions

open Contribution

variable {a : Arena} {value : Nat → Text} {file : Text} {id c : Nat} {e : Expr}

theorem operand_of_kind (hkind : a.kind c = e.kind) : operand a c = c := by
  unfold operand
  rw [hkind]
  cases e <;> rfl

/-- The code of an operand is that of its placeholder. -/
theorem render_of_kind (hinner : operand a id = c) (hkind : a.kind c = e.kind)
    (hvalue : value c = placeholder (e.spell kept)) : render a value id = e.spell kept := by
  have hcode : (if (value c).isEmpty then a.trimmedText c else renderValue (value c))
      = e.spell kept := by
    have hsealed := sealed_spell e
    rw [hvalue]
    show renderValue (placeholder (e.spell kept)) = _
    unfold renderValue
    rw [Symbolic.isLiteral_placeholder hsealed, Symbolic.singlePlaceholder?_placeholder hsealed]
    rfl
  unfold render
  rw [hinner]
  dsimp only
  rw [hkind]
  cases e <;> exact hcode

/-- The code for a child is the text of its expression. -/
theorem renderRole_of_kind {role : Text} (hchild : a.childByRole? id role = some c)
    (hkind : a.kind c = e.kind) (hvalue : value c = placeholder (e.spell kept)) :
    renderRole a value id role = e.spell kept := by
  unfold renderRole
  rw [hchild]
  exact render_of_kind (operand_of_kind hkind) hkind hvalue

/-- No field of the configuration variable is fetched from an unknown expression. -/
theorem configField?_of_unknown (hchild : a.childByRole? id "var" = some c)
    (hkind : a.kind c = e.kind) (hunknown : e.isUnknown = true) :
    Mark.configField? a id = none := by
  have hvariable : a.isVariable Mark.configVariable c = false := by
    unfold Arena.isVariable
    rw [hkind]
    cases e with
    | var name =>
        rw [Expr.isUnknown] at hunknown
        show (name.text == Mark.configVariable) = false
        simpa using hunknown
    | _ => rfl
  unfold Mark.configField?
  split
  · rw [hchild]
    dsimp only
    rw [hvariable]
    rfl
  · rfl

/-- A call contributes its callee and the code of its arguments. -/
theorem ofCall_of_args {args : List Text} (callee : Text)
    (hargs : (a.childrenByRole id "args").map (render a value) = args) :
    ofCall a value id callee = placeholder (callee ++ inCall args) := by
  unfold ofCall renderArgs inCall
  rw [hargs, List.append_assoc, List.append_assoc, List.append_assoc]

/-- The child that a member is, with what the member is. -/
theorem Has.exists_child {m : Members} {key : Text} {sort : Members → Prop} (h : Has m key sort)
    (hs : Stands a id m) (hkeys : (m.map Prod.fst).Nodup) (hplain : Dump.isPlain key = false)
    (hnode : ∀ x, sort x → Dump.isNode x = true) :
    ∃ c x, a.childByRole? id key = some c ∧ Stands a c x ∧ sort x := by
  obtain ⟨x, hfield, hx⟩ := h
  obtain ⟨c, hchild, hc⟩ := hs.exists_child hkeys hplain hfield (hnode x hx)
  exact ⟨c, x, hchild, hc, hx⟩

mutual

/-- The contribution of an unknown expression is the placeholder for its kept text. -/
theorem total_spell (hl : a.Linked) (file : Text) (e : Expr) {m : Members} {id : Nat}
    (h : e.Dumped m) (hs : Stands a id m) (hunknown : e.isUnknown = true) :
    total a file id = placeholder (e.spell kept) := by
  have hkeys := h.isObject.keys
  have hkind : a.kind id = e.kind := hs.kind.trans h.kindOf
  rw [total_eq hl]
  unfold ofNode
  rw [hkind]
  match e with
  | .var name =>
      rw [Expr.isUnknown] at hunknown
      exact if_neg (by simpa using hunknown)
  | .property base arrow name =>
      rw [Expr.Dumped] at h
      obtain ⟨c, x, hchild, hc, hx⟩ :=
        h.2.1.exists_child hs hkeys rfl fun x hx => hx.isObject.isNode
      have hbase := total_spell hl file base hx hc hunknown
      have hc := hc.kind.trans hx.kindOf
      show ofProperty a (total a file) id (some name.text) = _
      unfold ofProperty
      rw [configField?_of_unknown hchild hc hunknown, renderRole_of_kind hchild hc hbase]
      rfl
  | .method base arrow name args =>
      rw [Expr.Dumped] at h
      rw [Expr.isUnknown, Bool.and_eq_true] at hunknown
      obtain ⟨-, hvar, -, objs, hfield, hobjs⟩ := h
      obtain ⟨c, x, hchild, hc, hx⟩ :=
        hvar.exists_child hs hkeys rfl fun x hx => hx.isObject.isNode
      have hbase := total_spell hl file base hx hc hunknown.1
      have hargs := map_render hl file args hobjs
        (hs.forall₂_children hkeys rfl hfield hobjs.isNode) hunknown.2
      show ofCall a (total a file) id
        (renderRole a (total a file) id "var" ++ "->" ++ name.text) = _
      rw [ofCall_of_args _ hargs, renderRole_of_kind hchild (hc.kind.trans hx.kindOf) hbase]
      rfl
  | .staticProperty owner name => rfl
  | .classConstant owner name => rfl
  | .staticCall owner name args =>
      rw [Expr.Dumped] at h
      obtain ⟨-, -, -, objs, hfield, hobjs⟩ := h
      have hargs := map_render hl file args hobjs
        (hs.forall₂_children hkeys rfl hfield hobjs.isNode) hunknown
      exact ofCall_of_args _ hargs
  | .call function args =>
      rw [Expr.Dumped] at h
      rw [Expr.isUnknown, Bool.and_eq_true] at hunknown
      obtain ⟨-, -, objs, hfield, hobjs⟩ := h
      have hargs := map_render hl file args hobjs
        (hs.forall₂_children hkeys rfl hfield hobjs.isNode) hunknown.2
      have hdirname : ¬(Expr.call function args).kind.isDirname = true := by
        show ¬(function.joined.map Char.toLower == "dirname") = true
        simpa using hunknown.1
      exact (if_neg hdirname).trans (ofCall_of_args _ hargs)

/-- The code for arguments is the text of their expressions. -/
theorem map_render (hl : a.Linked) (file : Text) (args : List (Passing × Expr))
    {objs : List Members} {ids : List Nat} (h : AreDumped args objs)
    (hs : List.Forall₂ (Stands a) ids objs) (hunknown : areUnknown args = true) :
    ids.map (render a (total a file)) = spellArgs kept args := by
  match args with
  | [] =>
      rw [AreDumped] at h
      subst h
      cases hs
      rfl
  | (passing, e) :: rest =>
      rw [AreDumped] at h
      obtain ⟨first, others, rfl, hobj, -, hvalue, hothers⟩ := h
      rw [areUnknown, Bool.and_eq_true] at hunknown
      cases hs with
      | @cons id _ ids _ hfirst hrest =>
          have harg : a.kind id = .arg := by
            rw [hfirst.kind, Dump.typeOf, hobj.type]
            exact kindOf_arg first
          obtain ⟨c, x, hchild, hc, hx⟩ :=
            hvalue.exists_child hfirst hobj.keys rfl fun x hx => hx.isObject.isNode
          have hinner : operand a id = c := by
            unfold operand
            rw [harg]
            dsimp only
            rw [hchild]
            rfl
          rw [List.map_cons, spellArgs, map_render hl file rest hothers hrest hunknown.2,
            render_of_kind hinner (hc.kind.trans hx.kindOf)
              (total_spell hl file e hx hc hunknown.1)]
          rfl

end

end Contributions

/-- A dump that has the object of an unknown expression can be lowered over any file.
The node of the object contributes the placeholder for the kept text of the
expression, and code that the placeholder is spliced into has that text in it. It is
the written text just if the expression has nothing in it that is lost. -/
theorem contribution_written_iff {value : Json} {id : Nat} {position : List Nat} {m : Members}
    {e : Expr} (hid : (Dump.objects value)[id]? = some (position, m)) (hdumped : e.Dumped m)
    (hunknown : e.isUnknown = true) (source : Bytes) (file : Text) :
    ∃ a, Dump.lowerJson source value = .ok a
      ∧ Contribution.total a file id = '{' :: e.spell kept ++ ['}']
      ∧ Symbolic.toExpression? (Contribution.total a file id) = some (e.spell kept)
      ∧ (Contribution.total a file id = '{' :: e.spell written ++ ['}'] ↔ e.isExact = true) := by
  obtain ⟨a, hlower, hstands⟩ := Dump.exists_stands source hid
  have hlinked := (Dump.lowers_of_lowerJson hlower).grown.built.linked
  have htotal := total_spell hlinked file e hdumped hstands hunknown
  refine ⟨a, hlower, htotal, ?_, ?_⟩
  · rw [htotal]
    exact Symbolic.toExpression?_placeholder (sealed_spell e)
  · rw [htotal, ← (trims_spell e).eq_iff]
    constructor
    · intro heq
      exact List.append_cancel_right (List.cons.inj heq).2
    · intro heq
      rw [heq]
      rfl

/-- An include of an expression. -/
def included (e : Expr) : Json :=
  .array
    [.object
      [("nodeType", .string "Stmt_Expression"),
        ("expr", .object [("nodeType", .string "Expr_Include"), ("expr", .object e.dump)])]]

/-- `$cm->dir(\core\kind::MOD)`. -/
def exactCall : Expr :=
  .method (.var ⟨'c', "m", by decide, by decide⟩) .plain ⟨'d', "ir", by decide, by decide⟩
    [(.single, .classConstant
      ⟨.full, ⟨'c', "ore", by decide, by decide⟩, [⟨'k', "ind", by decide, by decide⟩]⟩
      ⟨'M', "OD", by decide, by decide⟩)]

theorem contribution_written_iff_exactCall :
    exactCall.isUnknown = true ∧ exactCall.Dumped exactCall.dump
    ∧ ∃ a, Dump.lowerJson (Bytes.ofText "include $cm->dir(\\core\\kind::MOD);") (included exactCall)
        = .ok a
      ∧ Contribution.total a "mod/quiz/view.php" 2 = "\x7b$cm->dir(\\core\\kind::MOD)\x7d" := by
  have hunknown : exactCall.isUnknown = true := by decide
  have hid : (Dump.objects (included exactCall))[2]? = some ([0, 1, 1], exactCall.dump) := rfl
  obtain ⟨a, hlower, -, -, hiff⟩ := contribution_written_iff hid (dumped_dump exactCall) hunknown
    (Bytes.ofText "include $cm->dir(\\core\\kind::MOD);") "mod/quiz/view.php"
  exact ⟨hunknown, dumped_dump exactCall, a, hlower, hiff.2 (by decide)⟩

/-- `$cm?->dir(...$names)`. -/
def nullsafeCall : Expr :=
  .method (.var ⟨'c', "m", by decide, by decide⟩) .nullsafe ⟨'d', "ir", by decide, by decide⟩
    [(.unpacked, .var ⟨'n', "ames", by decide, by decide⟩)]

/-- The arena of an include of that call. -/
def nullsafeArena : Arena :=
  Dump.lowerValue none "stmts" 0 (included nullsafeCall)
    (Arena.empty (Bytes.ofText "include $cm?->dir(...$names);"))

/-- The nullsafe fetch and the unpacking are gone from the path that is reported. -/
theorem nullsafe_lost :
    nullsafeCall.isUnknown = true ∧ nullsafeCall.Dumped nullsafeCall.dump
    ∧ (Dump.objects (included nullsafeCall))[2]? = some ([0, 1, 1], nullsafeCall.dump)
    ∧ nullsafeCall.spell written = "$cm?->dir(...$names)"
    ∧ Dump.lowerJson (Bytes.ofText "include $cm?->dir(...$names);") (included nullsafeCall)
      = .ok nullsafeArena
    ∧ Contribution.total nullsafeArena "mod/quiz/view.php" 2 = "\x7b$cm->dir($names)\x7d"
    ∧ (PathExpression.find nullsafeArena "mod/quiz/view.php").map PathExpression.symbolic
      = [("\x7b$cm->dir($names)\x7d" : Text)]
    ∧ Contribution.total nullsafeArena "mod/quiz/view.php" 2
      ≠ '{' :: nullsafeCall.spell written ++ ['}'] := by
  have hunknown : nullsafeCall.isUnknown = true := by decide
  have hdumped := dumped_dump nullsafeCall
  have hid : (Dump.objects (included nullsafeCall))[2]? = some ([0, 1, 1], nullsafeCall.dump) :=
    rfl
  have hlower : Dump.lowerJson (Bytes.ofText "include $cm?->dir(...$names);")
      (included nullsafeCall) = .ok nullsafeArena := rfl
  have hlinked := (Dump.lowers_of_lowerJson hlower).grown.built.linked
  obtain ⟨a, hlower', hstands⟩ := Dump.exists_stands (Bytes.ofText "include $cm?->dir(...$names);")
    hid
  cases hlower.symm.trans hlower'
  have htotal : Contribution.total nullsafeArena "mod/quiz/view.php" 2
      = "\x7b$cm->dir($names)\x7d" :=
    total_spell hlinked "mod/quiz/view.php" nullsafeCall hdumped hstands hunknown
  refine ⟨hunknown, hdumped, hid, by decide, hlower, htotal, by decide +kernel, ?_⟩
  rw [htotal]
  decide

end ComponentPaths.Code
