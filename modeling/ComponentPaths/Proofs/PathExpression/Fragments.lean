/-
Fragments: what the code in a placeholder is made of.

Most rules put a value that is not known into a placeholder, with the code
that computes it. `fragments` says what this code is made of, for every such
rule at once: names, source texts, and the code of operands, with fixed
text in between. `ofNode_of_fragments` is the law for it, and all else about
these rules follows from there: whatever stands in a fragment stands in the
code (`infix_codeOf`), and the operands are children of the node
(`ofChildren_of_fragments`).
-/
import ComponentPaths.Proofs.PathExpression.Reports
import ComponentPaths.Proofs.Symbolic.Sealed

namespace ComponentPaths.Contribution

open Arena (Linked Below)
open Symbolic

-- =============================================================== fragments

/-- What the code in a placeholder is made of. -/
inductive Fragment where
  /-- Text of the rule. -/
  | glue (text : Text) (shut : Sealed text)
  /-- A name that the node has. -/
  | name (text : Text)
  /-- Source text. -/
  | source (text : Text)
  /-- The code of an operand. -/
  | rendered (child : Nat)
  /-- The code of an operand in braces, the computed name of a property. -/
  | braced (child : Nat)
  /-- The code of arguments. -/
  | arguments (children : List Nat)

namespace Fragment

/-- The nodes whose code a fragment is. -/
def operands : Fragment → List Nat
  | .rendered child => [child]
  | .braced child => [child]
  | .arguments children => children
  | _ => []

/-- The text that a fragment takes over as it is. -/
def text? : Fragment → Option Text
  | .name text => some text
  | .source text => some text
  | _ => none

/-- The code of a fragment. -/
def code (a : Arena) (value : Nat → Text) : Fragment → Text
  | .glue text _ => text
  | .name text => text
  | .source text => text
  | .rendered child => render a value child
  | .braced child => '{' :: render a value child ++ ['}']
  | .arguments children => Text.join ", " (children.map (render a value))

end Fragment

variable (a : Arena) (value : Nat → Text)

/-- The fragment for the child in a role. -/
def roleFragments (id : Nat) (role : Text) : List Fragment :=
  (a.childByRole? id role).toList.map .rendered

/-- The fragment for a name, or else for the source text that computes it. -/
def nameFragments (id : Nat) (role : Text) : Option Text → List Fragment
  | some name => [.name name]
  | none => (a.childByRole? id role).toList.map fun child => .source (a.trimmedText child)

/-- The fragments of a call with a callee. -/
def callFragments (id : Nat) (callee : List Fragment) : List Fragment :=
  callee ++ [.glue "(" (by decide), .arguments (a.childrenByRole id "args"),
    .glue ")" (by decide)]

/-- The fragments of a property, from its name. -/
def propertyFragments (id : Nat) : Option Text → List Fragment
  | some name => [.name name]
  | none => (a.childByRole? id "name").toList.map .braced

/-- What is left of the path of a `dirname` call, if some levels of it can be
dropped. -/
def dirnameLeft? (id : Nat) : Option Text :=
  match a.childrenByRole id "args" with
  | [] => some []
  | path :: rest => dropLevels? (value path) (levels a (path :: rest))

/-- The fragments of the code in a placeholder, for a node whose rule makes
one. -/
def fragments (id : Nat) : Option (List Fragment) :=
  match a.kind id with
  | .constFetch name =>
    if name = "DIRECTORY_SEPARATOR" then none else some [.name name]
  | .variableRef (some name) =>
    if name = Mark.configVariable then none else some [.glue "$" (by decide), .name name]
  | .variableRef none => some [.source (a.trimmedText id)]
  | .propertyFetch name =>
    match (Mark.configField? a id).bind fun field => configFields.lookup field with
    | some _ => none
    | none =>
      some (roleFragments a id "var" ++ .glue "->" (by decide) :: propertyFragments a id name)
  | .staticPropertyFetch className name =>
    some (nameFragments a id "class" className ++ [.glue "::$" (by decide),
      match name with
      | some name => .name name
      | none => .source (a.trimmedText id)])
  | .arrayDimFetch =>
    some (roleFragments a id "var" ++ .glue "[" (by decide) ::
      (roleFragments a id "dim" ++ [.glue "]" (by decide)]))
  | .classConstFetch className name =>
    some (nameFragments a id "class" className ++ .glue "::" (by decide) ::
      name.toList.map .name)
  | .funcCall name =>
    if (a.kind id).isDirname then
      match dirnameLeft? a value id with
      | some _ => none
      | none => some (callFragments a id [.glue "dirname" (by decide)])
    else some (callFragments a id (nameFragments a id "name" name))
  | .methodCall name =>
    some (callFragments a id
      (roleFragments a id "var" ++ .glue "->" (by decide) :: nameFragments a id "name" name))
  | .staticCall className name =>
    some (callFragments a id (nameFragments a id "class" className
      ++ .glue "::" (by decide) :: nameFragments a id "name" name))
  | .ternary =>
    some [.glue "(" (by decide), .source (a.trimmedText id), .glue ")" (by decide)]
  | _ => none

/-- The code of fragments, one after another. -/
def codeOf (fs : List Fragment) : Text :=
  fs.flatMap (Fragment.code a value)

variable {a value} {file : Text} {id : Nat}

@[simp] theorem codeOf_nil : codeOf a value [] = [] := rfl

@[simp] theorem codeOf_cons (f : Fragment) (fs : List Fragment) :
    codeOf a value (f :: fs) = f.code a value ++ codeOf a value fs :=
  List.flatMap_cons

/-- The code of fragments is put together in order. -/
@[simp] theorem codeOf_append (fs gs : List Fragment) :
    codeOf a value (fs ++ gs) = codeOf a value fs ++ codeOf a value gs :=
  List.flatMap_append

@[simp] theorem codeOf_roleFragments (role : Text) :
    codeOf a value (roleFragments a id role) = renderRole a value id role := by
  unfold roleFragments renderRole
  cases a.childByRole? id role with
  | none => rfl
  | some child => exact List.append_nil _

@[simp] theorem codeOf_nameFragments (role : Text) (name : Option Text) :
    codeOf a value (nameFragments a id role name) = nameOr a id role name := by
  cases name with
  | some name => exact List.append_nil _
  | none =>
      simp only [nameFragments, nameOr]
      cases a.childByRole? id role with
      | none => rfl
      | some child => exact List.append_nil _

@[simp] theorem codeOf_callFragments (callee : List Fragment) :
    codeOf a value (callFragments a id callee)
      = codeOf a value callee ++ "(" ++ renderArgs a value id ++ ")" := by
  simp [callFragments, Fragment.code, renderArgs]

/-- A `dirname` call contributes what is left of its path, or else its code. -/
theorem dirname_eq :
    dirname a value id = (dirnameLeft? a value id).getD
      (placeholder (codeOf a value (callFragments a id [.glue "dirname" (by decide)]))) := by
  have hcode : codeOf a value (callFragments a id [.glue "dirname" (by decide)])
      = "dirname(" ++ renderArgs a value id ++ ")" := by
    rw [codeOf_callFragments, codeOf_cons, codeOf_nil]
    rfl
  rw [hcode]
  unfold dirname dirnameLeft?
  dsimp only
  cases a.childrenByRole id "args" with
  | nil => rfl
  | cons path rest => rfl

/-- The rule of a node with fragments is the placeholder for their code. -/
theorem ofNode_of_fragments {fs : List Fragment} (h : fragments a value id = some fs) :
    ofNode a value file id = placeholder (codeOf a value fs) := by
  unfold fragments at h
  unfold ofNode
  cases hkind : a.kind id with
  | constFetch name =>
      rw [hkind] at h
      dsimp only at h ⊢
      split at h
      · cases h
      · next hname =>
        cases h
        simp only [ofConstant, if_neg hname, codeOf_cons, codeOf_nil, Fragment.code,
          List.append_nil]
  | variableRef name =>
      rw [hkind] at h
      cases name with
      | none =>
          cases h
          simp only [ofVariable, codeOf_cons, codeOf_nil, Fragment.code, List.append_nil]
      | some name =>
          dsimp only at h ⊢
          split at h
          · cases h
          · next hname =>
            cases h
            simp only [ofVariable, if_neg hname, codeOf_cons, codeOf_nil, Fragment.code,
              List.append_nil]
            rfl
  | propertyFetch name =>
      rw [hkind] at h
      dsimp only at h ⊢
      unfold ofProperty
      cases hknown : (Mark.configField? a id).bind fun field => configFields.lookup field with
      | some known =>
          rw [hknown] at h
          cases h
      | none =>
          rw [hknown] at h
          cases h
          rw [codeOf_append, codeOf_cons, codeOf_roleFragments]
          cases name with
          | some name => simp [propertyFragments, Fragment.code]
          | none =>
              cases hname : a.childByRole? id "name" with
              | none =>
                  simp only [propertyFragments, hname, Option.toList_none, List.map_nil,
                    codeOf_nil, Fragment.code, List.append_assoc]
              | some child =>
                  simp only [propertyFragments, hname, Option.toList_some, List.map_cons,
                    List.map_nil, codeOf_cons, codeOf_nil, Fragment.code, List.append_nil,
                    List.append_assoc]
  | staticPropertyFetch className name =>
      rw [hkind] at h
      cases h
      rw [codeOf_append, codeOf_nameFragments]
      cases name with
      | some _ | none => simp [Fragment.code]
  | arrayDimFetch =>
      rw [hkind] at h
      cases h
      simp [Fragment.code]
  | classConstFetch className name =>
      rw [hkind] at h
      cases h
      rw [codeOf_append, codeOf_nameFragments]
      cases name with
      | some _ | none => simp [Fragment.code]
  | funcCall name =>
      rw [hkind] at h
      dsimp only at h ⊢
      split at h
      · next hdir =>
        rw [if_pos hdir, dirname_eq]
        split at h
        · cases h
        · next hleft =>
          cases h
          rw [hleft]
          rfl
      · next hdir =>
        cases h
        rw [if_neg hdir, codeOf_callFragments, codeOf_nameFragments]
        rfl
  | methodCall name =>
      rw [hkind] at h
      cases h
      simp [ofCall, Fragment.code]
  | staticCall className name =>
      rw [hkind] at h
      cases h
      simp [ofCall, Fragment.code]
  | ternary =>
      rw [hkind] at h
      cases h
      simp [Fragment.code]
  | _ =>
      rw [hkind] at h
      cases h

/-- Each fragment is in the code. -/
theorem infix_codeOf {f : Fragment} {fs : List Fragment} (h : f ∈ fs) :
    f.code a value <:+: codeOf a value fs := by
  obtain ⟨front, back, rfl⟩ := List.append_of_mem h
  rw [codeOf_append, codeOf_cons]
  exact ⟨codeOf a value front, codeOf a value back, by rw [List.append_assoc]⟩

/-- The code of each operand stands in the code of its fragment. -/
theorem Fragment.infix_code_of_operand {f : Fragment} {child : Nat} (h : child ∈ f.operands) :
    render a value child <:+: f.code a value := by
  cases f with
  | glue text shut => cases h
  | name text => cases h
  | source text => cases h
  | rendered c =>
      rw [List.mem_singleton.1 h]
      exact List.infix_rfl
  | braced c =>
      rw [List.mem_singleton.1 h]
      exact ⟨['{'], ['}'], rfl⟩
  | arguments children => exact Text.infix_join (List.mem_map.2 ⟨child, h, rfl⟩)

/-- The text that a kind of node contributes as it is. -/
def plainText? : Arena.Kind → Option Text
  | .stringLiteral text => some text
  | .interpolatedPart text => some text
  | .numberLiteral text => some text
  | _ => none

/-- A node with fragments is no literal. -/
theorem plainText?_of_fragments {fs : List Fragment} (h : fragments a value id = some fs) :
    plainText? (a.kind id) = none := by
  unfold fragments at h
  cases hkind : a.kind id with
  | stringLiteral text | interpolatedPart text | numberLiteral text =>
      rw [hkind] at h
      cases h
  | _ => rfl

-- ====================================================== operands are below

/-- The operands of the fragments are children of a node. -/
def OfChildren (a : Arena) (id : Nat) (fs : List Fragment) : Prop :=
  ∀ f ∈ fs, ∀ child ∈ f.operands, child ∈ a.children id

/-- Fragments of children can be put together. -/
theorem OfChildren.append {fs gs : List Fragment} (hf : OfChildren a id fs)
    (hg : OfChildren a id gs) : OfChildren a id (fs ++ gs) := by
  intro f hmem
  rcases List.mem_append.1 hmem with hmem | hmem
  · exact hf f hmem
  · exact hg f hmem

/-- A fragment that is text has no operands. -/
theorem OfChildren.cons {f : Fragment} {fs : List Fragment} (hf : f.operands = [])
    (h : OfChildren a id fs) : OfChildren a id (f :: fs) := by
  intro g hmem
  rcases List.mem_cons.1 hmem with rfl | hmem
  · rw [hf]
    exact fun child hchild => (by cases hchild)
  · exact h g hmem

theorem ofChildren_nil : OfChildren a id [] :=
  fun _ h => (by cases h)

/-- A fragment for the child in a role has no other operand. -/
theorem ofChildren_toList {wrap : Nat → Fragment} (hwrap : ∀ c, (wrap c).operands = [c])
    (role : Text) : OfChildren a id ((a.childByRole? id role).toList.map wrap) := by
  intro f hf child hchild
  obtain ⟨c, hc, rfl⟩ := List.mem_map.1 hf
  rw [hwrap] at hchild
  rw [List.mem_singleton.1 hchild]
  exact Arena.mem_children_of_childByRole? (Option.mem_toList.1 hc)

theorem ofChildren_role (role : Text) : OfChildren a id (roleFragments a id role) :=
  ofChildren_toList (fun _ => rfl) role

/-- A name is given, or comes from a child, -/
theorem ofChildren_name (role : Text) (name : Option Text) :
    OfChildren a id (nameFragments a id role name) := by
  cases name with
  | some name => exact .cons rfl ofChildren_nil
  | none =>
      intro f hf child hchild
      obtain ⟨c, -, rfl⟩ := List.mem_map.1 hf
      cases hchild

/-- as the name of a property does. -/
theorem ofChildren_property (name : Option Text) :
    OfChildren a id (propertyFragments a id name) := by
  cases name with
  | some name => exact .cons rfl ofChildren_nil
  | none => exact ofChildren_toList (fun _ => rfl) "name"

/-- The arguments of a call are children. -/
theorem ofChildren_call {callee : List Fragment} (h : OfChildren a id callee) :
    OfChildren a id (callFragments a id callee) := by
  have hargs : OfChildren a id [.arguments (a.childrenByRole id "args")] := by
    intro f hf child hchild
    rw [List.mem_singleton.1 hf] at hchild
    exact Arena.mem_children_of_childrenByRole hchild
  exact h.append (.cons rfl (hargs.append (.cons rfl ofChildren_nil)))

/-- All that the fragments of a node use are its children. -/
theorem ofChildren_of_fragments {fs : List Fragment} (h : fragments a value id = some fs) :
    OfChildren a id fs := by
  unfold fragments at h
  split at h
  · split at h
    · cases h
    · cases h
      exact .cons rfl ofChildren_nil
  · split at h
    · cases h
    · cases h
      exact .cons rfl (.cons rfl ofChildren_nil)
  · cases h
    exact .cons rfl ofChildren_nil
  · split at h
    · cases h
    · cases h
      exact (ofChildren_role _).append (.cons rfl (ofChildren_property _))
  · next className name _ =>
    cases h
    refine (ofChildren_name _ _).append (.cons rfl (.cons ?_ ofChildren_nil))
    cases name <;> rfl
  · cases h
    exact (ofChildren_role _).append
      (.cons rfl ((ofChildren_role _).append (.cons rfl ofChildren_nil)))
  · next className name _ =>
    cases h
    refine (ofChildren_name _ _).append (.cons rfl ?_)
    cases name with
    | none => exact ofChildren_nil
    | some name => exact .cons rfl ofChildren_nil
  · split at h
    · split at h
      · cases h
      · cases h
        exact ofChildren_call (.cons rfl ofChildren_nil)
    · cases h
      exact ofChildren_call (ofChildren_name _ _)
  · cases h
    exact ofChildren_call ((ofChildren_role _).append (.cons rfl (ofChildren_name _ _)))
  · cases h
    exact ofChildren_call ((ofChildren_name _ _).append (.cons rfl (ofChildren_name _ _)))
  · cases h
    exact .cons rfl (.cons rfl (.cons rfl ofChildren_nil))
  · cases h

/-- The subtree of an operand is part of the subtree of the child it is the
value of. -/
theorem postorder_operand_subset (hl : Linked a) (c : Nat) :
    a.postorder (operand a c) ⊆ a.postorder c := by
  unfold operand
  split
  · cases hvalue : a.childByRole? c "value" with
    | none => exact List.Subset.refl _
    | some inner =>
        exact Arena.postorder_subset_of_child hl (Arena.mem_children_of_childByRole? hvalue)
  · exact List.Subset.refl _

end ComponentPaths.Contribution
