/-
What the rules for contributions read.

A rule looks at its node, at the children in some roles, and at the values
inside of arguments, which are one step further down. `Alike` is what two
nodes have to have in common so that no rule can tell them apart, each in an
arena of its own and with contributions of its own: kind, role, text,
contribution, and children that are alike in turn. Each helper of the rules
gives the same answer for nodes that are alike, and so do the rules
(`ofNode_alike`).

Within one arena this says that a rule reads contributions of nodes below
only (`ofNode_congr`). So the rules are a recursion over the tree, and
`Contribution.total` is what it defines.
-/
import Mathlib.Data.List.Forall2
import ComponentPaths.PathExpression.Contribution
import ComponentPaths.Proofs.Arena.Links

namespace ComponentPaths

namespace Arena

variable {a : Arena}

/-- A child in a role is a child. -/
theorem mem_children_of_childByRole? {id c : Nat} {role : Text}
    (h : a.childByRole? id role = some c) : c ∈ a.children id :=
  List.mem_of_find?_eq_some h

theorem mem_children_of_childrenByRole {id c : Nat} {role : Text}
    (h : c ∈ a.childrenByRole id role) : c ∈ a.children id :=
  (List.mem_filter.1 h).1

end Arena

namespace Contribution

open Arena (Linked Below)

-- ==================================================================== alike

/-- Two nodes have the same role, each in its parent. -/
def SameRole (a b : Arena) (x y : Nat) : Prop :=
  (a.node? x).map Arena.Node.role = (b.node? y).map Arena.Node.role

instance (a b : Arena) (x y : Nat) : Decidable (SameRole a b x y) :=
  inferInstanceAs (Decidable (_ = _))

/-- Nodes in the same role have the same roles. -/
theorem SameRole.hasRole_eq {a b : Arena} {x y : Nat} (h : SameRole a b x y) (role : Text) :
    a.hasRole role x = b.hasRole role y := by
  have hany := congrArg (Option.any (· == role)) h
  rw [Option.any_map, Option.any_map] at hany
  exact hany

/-- Two nodes that no rule can tell apart. -/
inductive Alike (a : Arena) (v : Nat → Text) (b : Arena) (w : Nat → Text) : Nat → Nat → Prop
  | node {x y : Nat} (kind : a.kind x = b.kind y) (text : a.text x = b.text y)
      (role : SameRole a b x y) (value : v x = w y)
      (children : List.Forall₂ (Alike a v b w) (a.children x) (b.children y)) :
      Alike a v b w x y

/-- Two nodes whose children are alike. -/
def AlikeBelow (a : Arena) (v : Nat → Text) (b : Arena) (w : Nat → Text) (x y : Nat) : Prop :=
  List.Forall₂ (Alike a v b w) (a.children x) (b.children y)

variable {a b : Arena} {v w : Nat → Text} {file : Text} {x y : Nat}

section Alike

variable (h : Alike a v b w x y)

include h

theorem Alike.kind_eq : a.kind x = b.kind y := by
  cases h with
  | node kind => exact kind

theorem Alike.trimmedText_eq : a.trimmedText x = b.trimmedText y := by
  cases h with
  | node kind text => exact congrArg Text.trim text

theorem Alike.hasRole_eq (role : Text) : a.hasRole role x = b.hasRole role y := by
  cases h with
  | node kind text hrole => exact hrole.hasRole_eq role

theorem Alike.value_eq : v x = w y := by
  cases h with
  | node kind text role value => exact value

/-- What is alike is alike below. -/
theorem Alike.alikeBelow : AlikeBelow a v b w x y := by
  cases h with
  | node kind text role value children => exact children

end Alike

/-- A node is like itself when the contributions there and below agree. -/
theorem alike_self (hl : Linked a) {id : Nat} (hid : v id = w id)
    (h : ∀ c, Below a id c → v c = w c) : Alike a v a w id id := by
  induction id using hl.children_induction with
  | step id ih =>
      refine .node rfl rfl rfl hid (List.forall₂_same.2 fun c hc => ?_)
      exact ih c hc (h c (.child hc)) fun d hd => h d (.step hc hd)

-- ================================================================= children

section AlikeBelow

variable (h : AlikeBelow a v b w x y)

include h

/-- The first children in a role are missing both, or are alike. -/
theorem AlikeBelow.childByRole? (role : Text) :
    a.childByRole? x role = none ∧ b.childByRole? y role = none
    ∨ ∃ c d, a.childByRole? x role = some c ∧ b.childByRole? y role = some d
        ∧ Alike a v b w c d := by
  unfold AlikeBelow at h
  unfold Arena.childByRole?
  generalize a.children x = cs, b.children y = ds at h ⊢
  induction h with
  | nil => exact Or.inl ⟨rfl, rfl⟩
  | @cons c d cs ds hcd _ ih =>
      rw [List.find?_cons, List.find?_cons, hcd.hasRole_eq role]
      cases b.hasRole role d with
      | true => exact Or.inr ⟨c, d, rfl, rfl, hcd⟩
      | false => exact ih

/-- The children in a role are alike, one by one. -/
theorem AlikeBelow.childrenByRole (role : Text) :
    List.Forall₂ (Alike a v b w) (a.childrenByRole x role) (b.childrenByRole y role) :=
  List.rel_filter (fun _ _ hcd => Bool.eq_iff_iff.1 (hcd.hasRole_eq role)) h

end AlikeBelow

/-- What gives equal results on nodes that are alike does so along lists. -/
theorem map_alike {f g : Nat → Text} (hfg : ∀ c d, Alike a v b w c d → f c = g d)
    {cs ds : List Nat} (h : List.Forall₂ (Alike a v b w) cs ds) : cs.map f = ds.map g := by
  induction h with
  | nil => rfl
  | cons hcd _ ih => rw [List.map_cons, List.map_cons, hfg _ _ hcd, ih]

-- ================================================================== helpers

/-- Arguments that are alike have values that are alike. -/
theorem operand_alike (h : Alike a v b w x y) :
    Alike a v b w (operand a x) (operand b y) := by
  unfold operand
  rw [h.kind_eq]
  split
  · rcases h.alikeBelow.childByRole? "value" with ⟨ha, hb⟩ | ⟨c, d, ha, hb, hcd⟩
    · rw [ha, hb]
      exact h
    · rw [ha, hb]
      exact hcd
  · exact h

/-- Nodes that are alike have the same code, -/
theorem render_alike (h : Alike a v b w x y) : render a v x = render b w y := by
  have hinner := operand_alike h
  unfold render
  dsimp only
  rw [hinner.kind_eq, hinner.trimmedText_eq, hinner.value_eq]

/-- The second of the arguments decides how many levels a call drops. -/
theorem levels_alike {args args' : List Nat} (h : List.Forall₂ (Alike a v b w) args args') :
    levels a args = levels b args' := by
  cases h with
  | nil => rfl
  | cons _ h =>
      cases h with
      | nil => rfl
      | @cons c d _ _ hcd _ =>
          have hvalue := hcd.alikeBelow.childByRole? "value"
          unfold levels
          rw [List.getElem?_cons_succ, List.getElem?_cons_zero, List.getElem?_cons_succ,
            List.getElem?_cons_zero, Option.bind_some, Option.bind_some]
          rcases hvalue with ⟨ha, hb⟩ | ⟨c', d', ha, hb, hcd'⟩
          · rw [ha, hb]
          · rw [ha, hb]
            dsimp only
            rw [hcd'.kind_eq]

section Helpers

variable (h : AlikeBelow a v b w x y)

include h

/-- and so have their children in a role, -/
theorem renderRole_alike (role : Text) : renderRole a v x role = renderRole b w y role := by
  unfold renderRole
  rcases h.childByRole? role with ⟨ha, hb⟩ | ⟨c, d, ha, hb, hcd⟩
  · rw [ha, hb]
  · rw [ha, hb]
    exact render_alike hcd

/-- and the arguments of calls. -/
theorem renderArgs_alike : renderArgs a v x = renderArgs b w y := by
  unfold renderArgs
  rw [map_alike (fun _ _ hcd => render_alike hcd) (h.childrenByRole "args")]

/-- A name that is computed is shown by the same source text. -/
theorem nameOr_alike (role : Text) (name : Option Text) :
    nameOr a x role name = nameOr b y role name := by
  cases name with
  | some name => rfl
  | none =>
      unfold nameOr
      rcases h.childByRole? role with ⟨ha, hb⟩ | ⟨c, d, ha, hb, hcd⟩
      · rw [ha, hb]
      · rw [ha, hb]
        exact hcd.trimmedText_eq

/-- The rule for `dirname` looks at arguments only. -/
theorem dirname_alike : dirname a v x = dirname b w y := by
  have hargs := h.childrenByRole "args"
  unfold dirname
  rw [renderArgs_alike h]
  dsimp only
  rw [levels_alike hargs]
  generalize levels b (b.childrenByRole y "args") = count
  generalize a.childrenByRole x "args" = args, b.childrenByRole y "args" = args' at hargs ⊢
  cases hargs with
  | nil => rfl
  | cons hpath _ =>
      dsimp only
      rw [hpath.value_eq]

/-- A field of the configuration variable is told by the kinds around it. -/
theorem configField?_alike (kind : a.kind x = b.kind y) :
    Mark.configField? a x = Mark.configField? b y := by
  unfold Mark.configField?
  rw [kind]
  split
  · rcases h.childByRole? "var" with ⟨ha, hb⟩ | ⟨c, d, ha, hb, hcd⟩
    · rw [ha, hb]
    · rw [ha, hb]
      dsimp only
      unfold Arena.isVariable
      rw [hcd.kind_eq]
  · rfl

/-- The rule for properties reads the field, the name and the object. -/
theorem ofProperty_alike (kind : a.kind x = b.kind y) (name : Option Text) :
    ofProperty a v x name = ofProperty b w y name := by
  unfold ofProperty
  rw [configField?_alike h kind, renderRole_alike h "var"]
  rcases h.childByRole? "name" with ⟨ha, hb⟩ | ⟨c, d, ha, hb, hcd⟩
  · rw [ha, hb]
  · rw [ha, hb]
    dsimp only
    rw [render_alike hcd]

/-- Contributions are put together in the same order. -/
theorem ofChildren_alike : ofChildren a v x = ofChildren b w y := by
  unfold ofChildren
  rw [List.flatMap_def, List.flatMap_def, map_alike (fun _ _ hcd => hcd.value_eq) h]

/-- The rule for calls reads the arguments. -/
theorem ofCall_alike (callee : Text) : ofCall a v x callee = ofCall b w y callee := by
  unfold ofCall
  rw [renderArgs_alike h]

/-- The rule of a node depends on its kind, its text, and what the children
are like. -/
theorem ofNode_alike (kind : a.kind x = b.kind y) (text : a.text x = b.text y) :
    ofNode a v file x = ofNode b w file y := by
  have htrimmed : a.trimmedText x = b.trimmedText y := congrArg Text.trim text
  unfold ofNode
  rw [kind]
  split
  case h_7 name _ =>
    unfold ofVariable
    rw [htrimmed]
  case h_8 name _ => exact ofProperty_alike h kind name
  case h_9 className name _ => rw [nameOr_alike h, htrimmed]
  case h_10 _ => rw [renderRole_alike h "var", renderRole_alike h "dim"]
  case h_11 className name _ => rw [nameOr_alike h]
  case h_12 name _ => rw [dirname_alike h, nameOr_alike h, ofCall_alike h]
  case h_13 name _ => rw [renderRole_alike h "var", nameOr_alike h, ofCall_alike h]
  case h_14 className name _ => rw [nameOr_alike h, nameOr_alike h, ofCall_alike h]
  case h_15 _ => rw [htrimmed]
  case h_16 _ => exact ofChildren_alike h
  case h_17 _ => exact ofChildren_alike h
  case h_18 _ => exact ofChildren_alike h
  all_goals rfl

end Helpers

/-- The rule of a call that drops directories. -/
theorem ofNode_of_isDirname {id : Nat} (h : (a.kind id).isDirname = true) :
    ofNode a v file id = dirname a v id := by
  unfold ofNode
  cases hkind : a.kind id with
  | funcCall name =>
      rw [hkind] at h
      dsimp only
      rw [if_pos h]
  | _ =>
      rw [hkind] at h
      cases h

-- ================================================================ recursion

/-- The rule of a node reads contributions of nodes below only. -/
theorem ofNode_congr (hl : Linked a) {id : Nat} (h : ∀ c, Below a id c → v c = w c) :
    ofNode a v file id = ofNode a w file id := by
  refine ofNode_alike (List.forall₂_same.2 fun c hc => ?_) rfl rfl
  exact alike_self hl (h c (.child hc)) fun d hd => h d (.step hc hd)

/-- The contribution of a node, given by what is below it alone. -/
def total (a : Arena) (file : Text) (id : Nat) : Text :=
  ofNode a (fun c => if id < c ∧ c < a.size then total a file c else []) file id
termination_by a.size - id

/-- The contribution of a node follows from those of the nodes below by its rule. -/
theorem total_eq (h : Linked a) (id : Nat) :
    total a file id = ofNode a (total a file) file id := by
  rw [total]
  refine ofNode_congr h fun c hc => ?_
  rw [if_pos (hc.lt h)]

/-- The rules have one solution. -/
theorem total_unique (hl : Linked a) (h : ∀ id, v id = ofNode a v file id) :
    v = total a file := by
  -- for the induction, a node together with all that is below it
  have hall : ∀ id, v id = total a file id ∧ ∀ c, Below a id c → v c = total a file c := by
    intro id
    induction id using hl.children_induction with
    | step id ih =>
        have hbelow : ∀ c, Below a id c → v c = total a file c := by
          intro c hc
          cases hc with
          | child hc => exact (ih c hc).1
          | step hd hc => exact (ih _ hd).2 c hc
        rw [h id, total_eq hl]
        exact ⟨ofNode_congr hl hbelow, hbelow⟩
  exact funext fun id => (hall id).1

end Contribution

end ComponentPaths
