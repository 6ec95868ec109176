/-
What the flags of a path expression say about the file.

The flags are computed by lists: of everything below a node, and of the
nodes above it, nearest first. What they say needs no list. An expression
reads the configuration if a variable of that name is within it
(`usesConfig_iff`), it is in a constant context if it lies below a node that
holds constant expressions only (`inConstantContext_iff`), and the
configuration is out of sight for it if the function right around it has no
global statement of its own for it (`configInScope_eq_false_iff`).

Right around means that no other function is in between. The list of
ancestors goes outward one parent at a time, so the first function in it has
none in between, and there is only one function that has none
(`nearestWhere?_eq_some_iff`, by induction along the parents).
-/
import ComponentPaths.PathExpression.Find
import ComponentPaths.Proofs.Arena.Walks

namespace ComponentPaths

namespace Arena

variable {a : Arena}

theorem isVariable_iff {name : Text} {id : Nat} :
    a.isVariable name id = true ↔ a.kind id = .variableRef (some name) := by
  unfold isVariable Kind.isVariable
  split
  · rename_i n hkind
    rw [hkind]
    simp
  · rename_i hkind
    constructor
    · intro h
      cases h
    · intro h
      exact absurd h (hkind name)

/-- To be inside of a kind of node is to be below one. -/
theorem isInsideWhere_iff (hp : Placed a) (hl : Linked a) {id : Nat} {p : Kind → Bool} :
    a.isInsideWhere id p = true ↔ ∃ x, Below a x id ∧ p (a.kind x) = true := by
  unfold isInsideWhere
  rw [List.any_eq_true]
  constructor
  · rintro ⟨x, hx, hkind⟩
    exact ⟨x, below_of_mem_ancestors hp hx, hkind⟩
  · rintro ⟨x, hx, hkind⟩
    exact ⟨x, mem_ancestors_of_below hl hx, hkind⟩

-- ================================================================ nearest

/-- A node is the nearest one of some kinds above another. -/
structure Nearest (a : Arena) (p : Kind → Bool) (x id : Nat) : Prop where
  below : Below a x id
  kind : p (a.kind x) = true
  between : ∀ y, Below a x y → Below a y id → p (a.kind y) = false

/-- What is above a node is its parent or above that. -/
theorem within_parent_of_below (hl : Linked a) {x id parent : Nat}
    (hid : id ∈ a.children parent) (h : Below a x id) : Within a x parent := by
  obtain ⟨q, hq, hwithin⟩ := h.last
  have hsame := (hl.child q id hq).1
  rw [(hl.child parent id hid).1] at hsame
  rw [Option.some.inj hsame]
  exact hwithin

/-- A parent of the right kind is the nearest node, and the only nearest one. -/
theorem nearest_parent_iff (hl : Linked a) {p : Kind → Bool} {x id parent : Nat}
    (hid : id ∈ a.children parent) (hkind : p (a.kind parent) = true) :
    Nearest a p x id ↔ x = parent := by
  constructor
  · intro h
    rcases within_parent_of_below hl hid h.below with heq | hbelow
    · exact heq.symm
    · -- the parent itself would be in between
      rw [h.between parent hbelow (.child hid)] at hkind
      cases hkind
  · rintro rfl
    refine ⟨.child hid, hkind, fun y hxy hyid => ?_⟩
    have hlt := (hxy.lt hl).1
    rcases within_parent_of_below hl hid hyid with rfl | hyx
    · omega
    · have := (hyx.lt hl).1
      omega

/-- Past a parent of another kind, the search goes on from there. -/
theorem nearest_of_parent_iff (hl : Linked a) {p : Kind → Bool} {x id parent : Nat}
    (hid : id ∈ a.children parent) (hkind : p (a.kind parent) = false) :
    Nearest a p x id ↔ Nearest a p x parent := by
  constructor
  · rintro ⟨hbelow, hx, hbetween⟩
    rcases within_parent_of_below hl hid hbelow with rfl | hbelow
    · rw [hkind] at hx
      cases hx
    · exact ⟨hbelow, hx, fun y hxy hy => hbetween y hxy (hy.trans (.child hid))⟩
  · rintro ⟨hbelow, hx, hbetween⟩
    refine ⟨hbelow.trans (.child hid), hx, fun y hxy hy => ?_⟩
    rcases within_parent_of_below hl hid hy with rfl | hy
    · exact hkind
    · exact hbetween y hxy hy

/-- The nearest node of some kinds is the one with none of them in between. -/
theorem nearestWhere?_eq_some_iff (hp : Placed a) (hl : Linked a) {p : Kind → Bool}
    {id x : Nat} : a.nearestWhere? id p = some x ↔ Nearest a p x id := by
  unfold nearestWhere?
  induction id using Nat.strongRecOn with
  | ind id ih =>
      cases hparent : a.parent? id with
      | none =>
          have htop : a.ancestors id = [] := by
            rw [ancestors]
            simp only [hparent]
          rw [htop]
          constructor
          · intro h
            cases h
          · -- what has nothing above it has no nearest node above it
            intro h
            have hmem := mem_ancestors_of_below hl h.below
            rw [htop] at hmem
            cases hmem
      | some parent =>
          have hid := hp.below id parent hparent
          have hlt := (hl.child parent id hid).2.1
          rw [ancestors_of_child hl hid, List.find?_cons]
          cases hkind : p (a.kind parent) with
          | true =>
              rw [nearest_parent_iff hl hid hkind, Option.some.injEq]
              exact eq_comm
          | false => rw [nearest_of_parent_iff hl hid hkind, ← ih parent hlt]

end Arena

-- =================================================================== flags

namespace PathExpression

open Arena (Linked Placed Below Within Nearest)

variable {a : Arena} {id function : Nat}

/-- A function is the one right around a node. -/
def FunctionAround (a : Arena) (function id : Nat) : Prop :=
  Nearest a (· == .functionLike) function id

/-- A function has a global statement of its own that names the configuration
variable. -/
def DeclaresConfig (a : Arena) (function : Nat) : Prop :=
  ∃ statement v, FunctionAround a function statement ∧ a.kind statement = .globalStatement
    ∧ v ∈ a.children statement ∧ a.kind v = .variableRef (some Mark.configVariable)

/-- The configuration variable is used where it is within the node. -/
theorem usesConfig_iff (hl : Linked a) :
    usesConfig a id = true
      ↔ ∃ v, Within a id v ∧ a.kind v = .variableRef (some Mark.configVariable) := by
  unfold usesConfig
  rw [List.any_eq_true]
  refine exists_congr fun v => ?_
  rw [List.mem_cons, Arena.mem_descendants hl, Arena.isVariable_iff]
  rfl

/-- An expression is in a constant if it is below one. -/
theorem inConstantContext_iff (hp : Placed a) (hl : Linked a) :
    (flagsOf a id).inConstantContext = true
      ↔ ∃ x, Below a x id ∧ (a.kind x).isConstantContext = true :=
  Arena.isInsideWhere_iff hp hl

/-- The function around an expression is the nearest one above. -/
theorem functionAround?_eq_some_iff (hp : Placed a) (hl : Linked a) :
    functionAround? a id = some function ↔ FunctionAround a function id :=
  Arena.nearestWhere?_eq_some_iff hp hl

/-- A function declares the configuration variable if it has a global statement for it.
-/
theorem any_declaresConfig_iff (hp : Placed a) (hl : Linked a) :
    (a.descendants function).any (declaresConfig a function) = true
      ↔ DeclaresConfig a function := by
  rw [List.any_eq_true]
  constructor
  · rintro ⟨statement, -, h⟩
    simp only [declaresConfig, Bool.and_eq_true, beq_iff_eq, List.any_eq_true] at h
    obtain ⟨⟨hkind, haround⟩, v, hv, hvar⟩ := h
    exact ⟨statement, v, (functionAround?_eq_some_iff hp hl).1 haround, hkind, hv,
      Arena.isVariable_iff.1 hvar⟩
  · rintro ⟨statement, v, haround, hkind, hv, hvar⟩
    refine ⟨statement, (Arena.mem_descendants hl).2 haround.below, ?_⟩
    simp only [declaresConfig, Bool.and_eq_true, beq_iff_eq, List.any_eq_true]
    exact ⟨⟨hkind, (functionAround?_eq_some_iff hp hl).2 haround⟩, v, hv,
      Arena.isVariable_iff.2 hvar⟩

/-- The configuration is out of sight where the function right around does not
declare it. -/
theorem configInScope_eq_false_iff (hp : Placed a) (hl : Linked a) :
    configInScope a id = false
      ↔ ∃ function, FunctionAround a function id ∧ ¬DeclaresConfig a function := by
  unfold configInScope
  cases haround : functionAround? a id with
  | none =>
      constructor
      · intro h
        cases h
      · rintro ⟨function, hfunction, -⟩
        rw [(functionAround?_eq_some_iff hp hl).2 hfunction] at haround
        cases haround
  | some outer =>
      have houter := (functionAround?_eq_some_iff hp hl).1 haround
      dsimp only
      rw [← Bool.not_eq_true, any_declaresConfig_iff hp hl]
      constructor
      · exact fun h => ⟨outer, houter, h⟩
      · rintro ⟨function, hfunction, h⟩
        rw [(functionAround?_eq_some_iff hp hl).2 hfunction] at haround
        cases haround
        exact h

end PathExpression

end ComponentPaths
