/-
The inputs of a path expression: which variables get into its path.

`Kept x name id` says that the variable `name` at the node `x` gets from
there into the contribution of `id`. Not every variable does: a kind of node
without a rule contributes nothing, a dropped level is gone with the segment
that it drops, and source text shows what it shows. Where texts are `Neat`, that is,
where they do not open or close braces and quotes of others, all
contributions are tidy (`tidy_total`), and a variable that is kept stands in
a placeholder of the contribution (`holds_total`).
-/
import ComponentPaths.Proofs.PathExpression.Fragments
import ComponentPaths.Proofs.Symbolic.Above

namespace ComponentPaths.Contribution

open Arena (Linked Below)
open Symbolic

variable {a : Arena} {value : Nat → Text} {file : Text} {id : Nat}

-- ============================================================== neat texts

/-- The text of a number. -/
def numberText? : Arena.Kind → Option Text
  | .numberLiteral text => some text
  | _ => none

/-- An operand whose code neither opens nor closes what is not its own: this
matters where the code is a number, source text, or a path that mentions the
root. -/
structure NeatOperand (a : Arena) (file : Text) (x : Nat) : Prop where
  number : ∀ text ∈ numberText? (a.kind x), Sealed text
  source : total a file x = [] → Sealed (a.trimmedText x)
  root : '@' ∈ total a file x → Sealed (total a file x)

/-- A fragment that neither opens nor closes what is not its own. -/
structure Fragment.Neat (a : Arena) (file : Text) (f : Fragment) : Prop where
  text : ∀ text ∈ f.text?, Sealed text
  inner : ∀ child ∈ f.operands, NeatOperand a file (operand a child)

/-- A node whose texts keep their braces and quotes to themselves. -/
structure Neat (a : Arena) (file : Text) (id : Nat) : Prop where
  plain : ∀ text ∈ plainText? (a.kind id), Closed text
  code : ∀ fs ∈ fragments a (total a file) id, ∀ f ∈ fs, f.Neat a file

instance (x : Nat) : Decidable (NeatOperand a file x) :=
  decidable_of_iff
    ((∀ text ∈ numberText? (a.kind x), Sealed text)
      ∧ (total a file x = [] → Sealed (a.trimmedText x))
      ∧ ('@' ∈ total a file x → Sealed (total a file x)))
    ⟨fun h => ⟨h.1, h.2.1, h.2.2⟩, fun h => ⟨h.number, h.source, h.root⟩⟩

instance (f : Fragment) : Decidable (f.Neat a file) :=
  decidable_of_iff
    ((∀ text ∈ f.text?, Sealed text)
      ∧ ∀ child ∈ f.operands, NeatOperand a file (operand a child))
    ⟨fun h => ⟨h.1, h.2⟩, fun h => ⟨h.text, h.inner⟩⟩

instance (id : Nat) : Decidable (Neat a file id) :=
  decidable_of_iff
    ((∀ text ∈ plainText? (a.kind id), Closed text)
      ∧ ∀ fs ∈ fragments a (total a file) id, ∀ f ∈ fs, f.Neat a file)
    ⟨fun h => ⟨h.1, h.2⟩, fun h => ⟨h.plain, h.code⟩⟩

-- ---------------------------------------------------------------- rendering

/-- The code of a tidy contribution is sealed, if what mentions the root is. -/
theorem sealed_renderValue {t : Text} (h : Tidy t) (hroot : '@' ∈ t → Sealed t) :
    Sealed (renderValue t) := by
  unfold renderValue
  split
  · exact sealed_quote t
  · split
    · next inner hinner => exact h.sealed_of_singlePlaceholder? hinner
    · cases hcode : toExpression? t with
      | some code => exact h.sealed_of_toExpression? hcode
      | none =>
          by_cases hat : '@' ∈ t
          · exact hroot hat
          · have hsome := toExpression?_isSome hat
            rw [hcode] at hsome
            cases hsome

/-- What a contribution holds, its code has. -/
theorem Holds.infix_renderValue {part t : Text} (h : Holds part t) :
    part <:+: renderValue t := by
  unfold renderValue
  rw [h.isLiteral_eq_false, if_neg (by simp)]
  split
  · next inner hinner => exact h.infix_of_singlePlaceholder? hinner
  · cases hcode : toExpression? t with
    | some code => exact h.infix_of_toExpression? hcode
    | none => exact h.occurs

/-- The code of a neat operand is sealed. -/
theorem sealed_render {child : Nat} (hneat : NeatOperand a file (operand a child))
    (htidy : Tidy (total a file (operand a child))) :
    Sealed (render a (total a file) child) := by
  unfold render
  dsimp only
  split
  · next text hkind =>
    refine hneat.number text ?_
    rw [hkind]
    rfl
  · exact sealed_quote _
  · split
    · next hempty => exact hneat.source (List.isEmpty_iff.1 hempty)
    · exact sealed_renderValue htidy hneat.root

/-- What the contribution of an operand holds, its code has. -/
theorem infix_render {part : Text} {child : Nat}
    (hkind : plainText? (a.kind (operand a child)) = none)
    (h : Holds part (total a file (operand a child))) :
    part <:+: render a (total a file) child := by
  have hne : (total a file (operand a child)).isEmpty = false :=
    List.isEmpty_eq_false_iff.2 (List.ne_nil_of_mem h.mem_brace)
  unfold render
  dsimp only
  split
  · next heq =>
    rw [heq] at hkind
    cases hkind
  · next heq =>
    rw [heq] at hkind
    cases hkind
  · rw [hne, if_neg (by simp)]
    exact Holds.infix_renderValue h

/-- The code of a neat fragment is sealed. -/
theorem Fragment.Neat.sealed_code {f : Fragment} (h : f.Neat a file)
    (htidy : ∀ child ∈ f.operands, Tidy (total a file (operand a child))) :
    Sealed (f.code a (total a file)) := by
  obtain ⟨htext, hoperand⟩ := h
  cases f with
  | glue text shut => exact shut
  | name text => exact htext text rfl
  | source text => exact htext text rfl
  | rendered child =>
      have hmem : child ∈ (Fragment.rendered child).operands := List.mem_singleton.2 rfl
      exact sealed_render (hoperand child hmem) (htidy child hmem)
  | braced child =>
      have hmem : child ∈ (Fragment.braced child).operands := List.mem_singleton.2 rfl
      exact (sealed_render (hoperand child hmem) (htidy child hmem)).braces
  | arguments children =>
      refine sealed_join (by decide) fun code hcode => ?_
      obtain ⟨child, hmem, rfl⟩ := List.mem_map.1 hcode
      exact sealed_render (hoperand child hmem) (htidy child hmem)

/-- And so is the code of neat fragments, one after another. -/
theorem sealed_codeOf {fs : List Fragment} (hneat : ∀ f ∈ fs, f.Neat a file)
    (htidy : ∀ f ∈ fs, ∀ child ∈ f.operands, Tidy (total a file (operand a child))) :
    Sealed (codeOf a (total a file) fs) := by
  induction fs with
  | nil => rfl
  | cons f fs ih =>
      rw [codeOf_cons]
      refine ((hneat f List.mem_cons_self).sealed_code (htidy f List.mem_cons_self)).append ?_
      exact ih (fun g hg => hneat g (List.mem_cons_of_mem _ hg))
        fun g hg => htidy g (List.mem_cons_of_mem _ hg)

-- ====================================================== tidy contributions

/-- One level up keeps a path tidy, -/
theorem Tidy.levelUp? {t left : Text} (h : Tidy t) (hleft : levelUp? t = some left) :
    Tidy left := by
  unfold Contribution.levelUp? at hleft
  split at hleft
  · cases hleft
    exact tidy_of_not_mem (by decide)
  · exact h.dropLastSegment? hleft

/-- and so do more levels. -/
theorem Tidy.levelsUp? {count : Nat} {t left : Text} (h : Tidy t)
    (hleft : levelsUp? count t = some left) : Tidy left := by
  induction count generalizing t with
  | zero =>
      cases hleft
      exact h
  | succ count ih =>
      unfold Contribution.levelsUp? at hleft
      obtain ⟨up, hup, hleft⟩ := Option.bind_eq_some_iff.1 hleft
      exact ih (Tidy.levelUp? h hup) hleft

theorem Tidy.dropLevels? {count : Nat} {t left : Text} (h : Tidy t)
    (hleft : dropLevels? t count = some left) : Tidy left := by
  unfold Contribution.dropLevels? at hleft
  dsimp only at hleft
  refine Tidy.levelsUp? ?_ hleft
  split
  · exact h.collapseDots
  · exact h

/-- Tidy contributions are tidy one after another. -/
theorem tidy_flatMap {ids : List Nat} (h : ∀ c ∈ ids, Tidy (value c)) :
    Tidy (ids.flatMap value) := by
  induction ids with
  | nil => exact .nil
  | cons c ids ih =>
      rw [List.flatMap_cons]
      exact (h c List.mem_cons_self).append (ih fun d hd => h d (List.mem_cons_of_mem _ hd))

/-- What is left of the path of a `dirname` call is tidy. -/
theorem tidy_dirnameLeft {left : Text} (hvalue : ∀ c ∈ a.children id, Tidy (value c))
    (h : dirnameLeft? a value id = some left) : Tidy left := by
  unfold dirnameLeft? at h
  split at h
  · cases h
    exact .nil
  · next path rest hargs =>
    have hmem : path ∈ a.childrenByRole id "args" := by
      rw [hargs]
      exact List.mem_cons_self
    exact Tidy.dropLevels? (hvalue path (Arena.mem_children_of_childrenByRole hmem)) h

/-- The fields of the configuration variable stand for plain paths. -/
theorem tidy_configFields {field known : Text} (h : configFields.lookup field = some known) :
    Tidy known := by
  have hmem : known ∈ configFields.map Prod.snd := by
    obtain ⟨front, back, heq, -⟩ := List.lookup_eq_some_iff.1 h
    rw [heq]
    simp
  have hall : ∀ t ∈ configFields.map Prod.snd, '{' ∉ t := by decide
  exact tidy_of_not_mem (hall known hmem)

/-- A directory without braces contributes tidy text. -/
theorem tidy_ofDir (hfile : '{' ∉ file) : Tidy (ofDir file) := by
  unfold ofDir
  dsimp only
  split
  · exact tidy_of_not_mem (by decide)
  · refine (tidy_of_not_mem (by decide)).append (tidy_of_not_mem fun hmem => hfile ?_)
    exact Text.parentDir_subset file hmem

/-- The rule of a neat node keeps contributions tidy. -/
theorem tidy_ofNode (hfile : '{' ∉ file) (hneat : Neat a file id)
    (hchild : ∀ c ∈ a.children id, Tidy (total a file c))
    (hoperand : ∀ c ∈ a.children id, Tidy (total a file (operand a c))) :
    Tidy (ofNode a (total a file) file id) := by
  cases hf : fragments a (total a file) id with
  | some fs =>
      rw [ofNode_of_fragments hf]
      refine tidy_placeholder (sealed_codeOf (hneat.code fs hf) fun f hmem c hc => ?_)
      exact hoperand c (ofChildren_of_fragments hf f hmem c hc)
  | none =>
      have hplain : ∀ text, plainText? (a.kind id) = some text → Tidy text :=
        fun text h => tidy_of_closed (hneat.plain text h)
      unfold fragments at hf
      unfold ofNode
      cases hkind : a.kind id with
      | stringLiteral text | interpolatedPart text | numberLiteral text =>
          refine hplain text ?_
          rw [hkind]
          rfl
      | magicDir => exact tidy_ofDir hfile
      | magicFile => exact (tidy_of_not_mem (by decide)).append (tidy_of_not_mem hfile)
      | constFetch name =>
          rw [hkind] at hf
          dsimp only at hf ⊢
          split at hf
          · next hname =>
            simp only [ofConstant, if_pos hname]
            exact tidy_of_not_mem (by decide)
          · cases hf
      | variableRef name =>
          rw [hkind] at hf
          cases name with
          | none => cases hf
          | some name =>
              dsimp only at hf ⊢
              split at hf
              · next hname =>
                simp only [ofVariable, if_pos hname]
                exact .nil
              · cases hf
      | propertyFetch name =>
          rw [hkind] at hf
          dsimp only at hf ⊢
          unfold ofProperty
          cases hknown : (Mark.configField? a id).bind fun field => configFields.lookup field with
          | some known =>
              obtain ⟨field, -, hfield⟩ := Option.bind_eq_some_iff.1 hknown
              exact tidy_configFields hfield
          | none =>
              rw [hknown] at hf
              cases hf
      | funcCall name =>
          rw [hkind] at hf
          dsimp only at hf ⊢
          split at hf
          · next hdir =>
            rw [if_pos hdir, dirname_eq]
            split at hf
            · next left hleft =>
              rw [hleft]
              exact tidy_dirnameLeft hchild hleft
            · cases hf
          · cases hf
      | concat | interpolatedString | arg => exact tidy_flatMap hchild
      | staticPropertyFetch _ _ | arrayDimFetch | classConstFetch _ _ | methodCall _
      | staticCall _ _ | ternary =>
          -- these rules always have fragments
          rw [hkind] at hf
          cases hf
      | _ => exact .nil

/-- Below a node with neat texts, all contributions are tidy. -/
theorem tidy_total (hl : Linked a) (hfile : '{' ∉ file) (id : Nat) :
    (∀ x ∈ a.postorder id, Neat a file x) →
    ∀ x ∈ a.postorder id, Tidy (total a file x) := by
  induction id using hl.children_induction with
  | step id ih =>
      intro hneat x hx
      rw [Arena.postorder_eq hl] at hneat hx
      have hbelow : ∀ c ∈ a.children id, ∀ y ∈ a.postorder c, Tidy (total a file y) := by
        intro c hc
        refine ih c hc fun y hy => hneat y (List.mem_append_left _ ?_)
        exact List.mem_flatMap.2 ⟨c, hc, hy⟩
      rcases List.mem_append.1 hx with hx | hx
      · obtain ⟨c, hc, hx⟩ := List.mem_flatMap.1 hx
        exact hbelow c hc x hx
      · rw [List.mem_singleton.1 hx, total_eq hl]
        refine tidy_ofNode hfile (hneat id (List.mem_append_right _ (List.mem_singleton.2 rfl)))
          (fun c hc => hbelow c hc c (Arena.self_mem_postorder hl c)) fun c hc => ?_
        exact hbelow c hc _ (postorder_operand_subset hl c (Arena.self_mem_postorder hl _))

-- ========================================================== dropped levels

/-- The segments of a path that levels are taken off. -/
def levelSegments (path : Text) : List Text :=
  segments (if isAnchored path then collapseDots path else path)

/-- The segments that are left when some levels are dropped. -/
def segmentsLeft : Nat → List Text → List Text
  | 0, segs => segs
  | n + 1, segs => segmentsLeft n (segmentsAbove segs)

example : segmentsLeft 2 [['@'], ['a'], ['b'], ['c'], []] = [['@'], ['a']] := by decide

/-- Only what is there is left. -/
theorem segmentsLeft_subset (n : Nat) (segs : List Text) : segmentsLeft n segs ⊆ segs := by
  induction n generalizing segs with
  | zero => exact List.Subset.refl _
  | succ n ih => exact List.Subset.trans (ih _) (prefix_segmentsAbove segs).subset

/-- Each level drops a segment, or two if the last one is empty. -/
theorem length_segmentsLeft_le (n : Nat) (segs : List Text) :
    (segmentsLeft n segs).length ≤ segs.length - n := by
  induction n generalizing segs with
  | zero => exact Nat.le_refl _
  | succ n ih =>
      have habove : (segmentsAbove segs).length ≤ segs.length - 1 := by
        unfold segmentsAbove
        rw [List.length_dropLast]
        split
        · rw [List.length_dropLast]
          omega
        · exact Nat.le_refl _
      have hleft := ih (segmentsAbove segs)
      rw [segmentsLeft]
      omega

/-- There is nothing left to hold anything where the segments above are empty. -/
theorem not_mem_of_levelUp? {path up : Text}
    (h : Text.joinSlash (segmentsAbove (segments path)) = []) (hup : levelUp? path = some up) :
    '{' ∉ up := by
  unfold levelUp? at hup
  split at hup
  · cases hup
    decide
  · by_cases htop : path = "/"
    · subst htop
      cases hup
      decide
    · rw [dropLastSegment?_eq_above? htop, above?] at hup
      split at hup
      · cases hup
      · rw [h] at hup
        cases hup
        decide

/-- Where the segments above are not empty, one level up is the path of them. -/
theorem levelUp?_eq_joinSlash {path : Text}
    (h : Text.joinSlash (segmentsAbove (segments path)) ≠ []) :
    levelUp? path = some (Text.joinSlash (segmentsAbove (segments path)))
    ∧ segments (Text.joinSlash (segmentsAbove (segments path))) = segmentsAbove (segments path) := by
  have hne : segmentsAbove (segments path) ≠ [] := by
    intro hnil
    rw [hnil] at h
    exact h rfl
  have hroot : path ≠ "@" := by
    rintro rfl
    exact hne rfl
  have htop : path ≠ "/" := by
    rintro rfl
    exact hne rfl
  constructor
  · unfold levelUp?
    rw [if_neg hroot, dropLastSegment?_eq_above? htop, above?, if_neg hne,
      if_neg (by simpa using h)]
  · exact segments_joinSlash
      ((segmented_segments path).sublist (prefix_segmentsAbove _).sublist) hne

/-- Some levels up, a path holds what the segments hold that are left. -/
theorem holds_levelsUp?_iff {part path : Text} (h : Tidy path) (n : Nat) :
    (∃ left, levelsUp? n path = some left ∧ Holds part left)
      ↔ ∃ s ∈ segmentsLeft n (segments path), Holds part s := by
  induction n generalizing path with
  | zero =>
      constructor
      · rintro ⟨left, hleft, hholds⟩
        cases hleft
        exact hholds.exists_segment
      · rintro ⟨s, hs, hholds⟩
        refine ⟨path, rfl, ?_⟩
        rw [← joinSlash_segments path]
        exact holds_joinSlash h.segments hs hholds
  | succ n ih =>
      by_cases hnil : Text.joinSlash (segmentsAbove (segments path)) = []
      · refine iff_of_false ?_ ?_
        · rintro ⟨left, hleft, hholds⟩
          obtain ⟨up, hup, hleft⟩ := Option.bind_eq_some_iff.1 hleft
          have hplain := not_mem_of_levelUp? hnil hup
          obtain ⟨s, hs, hin⟩ := (ih (tidy_of_not_mem hplain)).1 ⟨left, hleft, hholds⟩
          have hpart := infix_of_mem_segments (segmentsLeft_subset _ _ hs)
          exact hplain (hpart.subset hin.mem_brace)
        · rintro ⟨s, hs, hholds⟩
          have hpart : s <:+: Text.joinSlash (segmentsAbove (segments path)) :=
            Text.infix_join (segmentsLeft_subset _ _ hs)
          rw [hnil, List.infix_nil] at hpart
          rw [hpart] at hholds
          cases hholds.mem_brace
      · obtain ⟨hup, hsegs⟩ := levelUp?_eq_joinSlash hnil
        have hlevel := ih (Tidy.levelUp? h hup)
        rw [hsegs] at hlevel
        rw [segmentsLeft, ← hlevel, levelsUp?, hup]
        rfl

/-- A path without some levels holds what the segments hold that are left of it. It
does not matter that no more levels are taken off than there are segments. -/
theorem holds_dropLevels?_iff {part path : Text} (h : Tidy path) (count : Nat) :
    (∃ left, dropLevels? path count = some left ∧ Holds part left)
      ↔ ∃ s ∈ segmentsLeft count (levelSegments path), Holds part s := by
  have hstart : Tidy (if isAnchored path then collapseDots path else path) := by
    split
    · exact h.collapseDots
    · exact h
  have hcap : ∀ segs : List Text,
      segmentsLeft (min count (max segs.length 1)) segs = segmentsLeft count segs := by
    intro segs
    by_cases hcount : count ≤ max segs.length 1
    · rw [Nat.min_eq_left hcount]
    · have hnone : ∀ n, segs.length ≤ n → segmentsLeft n segs = [] := fun n hn =>
        List.length_eq_zero_iff.1 (by
          have hle := length_segmentsLeft_le n segs
          omega)
      rw [hnone _ (by omega), hnone _ (by omega)]
  unfold dropLevels? levelSegments
  rw [holds_levelsUp?_iff hstart, hcap]

-- ========================================================== kept variables

/-- Whether a kind of node puts the contributions of its children one after
another. -/
def isJoined : Arena.Kind → Bool
  | .concat | .interpolatedString | .arg => true
  | _ => false

/-- The variable `name` at the node `x` gets into the contribution of a node. -/
inductive Kept (a : Arena) (file : Text) (x : Nat) (name : Text) : Nat → Prop
  /-- The variable itself. -/
  | self (named : a.kind x = .variableRef (some name)) : Kept a file x name x
  /-- It is in a part of what the node puts together. -/
  | part {id c : Nat} (joined : isJoined (a.kind id) = true) (child : c ∈ a.children id)
      (kept : Kept a file x name c) : Kept a file x name id
  /-- It is in an operand, whose code the node uses. -/
  | code {id c : Nat} {fs : List Fragment} {f : Fragment}
      (rule : fragments a (total a file) id = some fs) (fragment : f ∈ fs)
      (used : c ∈ f.operands) (kept : Kept a file x name (operand a c)) :
      Kept a file x name id
  /-- It is shown by source text that the node uses. -/
  | source {id : Nat} {fs : List Fragment} {text : Text}
      (rule : fragments a (total a file) id = some fs) (fragment : .source text ∈ fs)
      (inside : x ∈ a.postorder id) (shown : '$' :: name <:+: text) : Kept a file x name id
  /-- It is shown by the source text of an operand that is used as it is. -/
  | bare {id c : Nat} {fs : List Fragment} {f : Fragment}
      (rule : fragments a (total a file) id = some fs) (fragment : f ∈ fs)
      (used : c ∈ f.operands) (inside : x ∈ a.postorder (operand a c))
      (verbatim : render a (total a file) c = a.trimmedText (operand a c))
      (shown : '$' :: name <:+: a.trimmedText (operand a c)) : Kept a file x name id
  /-- It is in a segment of a path, and a `dirname` call does not drop it. -/
  | above {id path : Nat} {rest : List Nat} {segment : Text}
      (call : (a.kind id).isDirname = true)
      (arguments : a.childrenByRole id "args" = path :: rest)
      (kept : Kept a file x name path)
      (stays : segment ∈ segmentsLeft (levels a (path :: rest))
        (levelSegments (total a file path)))
      (holds : Holds ('$' :: name) segment) : Kept a file x name id

variable {x : Nat} {name : Text}

/-- Where a variable is kept there is more than literal text. -/
theorem Kept.plainText?_eq_none (h : Kept a file x name id) : plainText? (a.kind id) = none := by
  cases h with
  | self hvar =>
      rw [hvar]
      rfl
  | part hjoined _ _ =>
      unfold isJoined at hjoined
      split at hjoined <;> simp_all [plainText?]
  | code hfs _ _ _ => exact plainText?_of_fragments hfs
  | source hfs _ _ _ => exact plainText?_of_fragments hfs
  | bare hfs _ _ _ _ _ => exact plainText?_of_fragments hfs
  | above hcall _ _ _ _ =>
      unfold Arena.Kind.isDirname at hcall
      split at hcall <;> simp_all [plainText?]

/-- What one contribution holds, all of them hold together. -/
theorem holds_flatMap {part : Text} {ids : List Nat} (htidy : ∀ c ∈ ids, Tidy (value c))
    {c : Nat} (hc : c ∈ ids) (h : Holds part (value c)) : Holds part (ids.flatMap value) := by
  obtain ⟨front, back, rfl⟩ := List.append_of_mem hc
  rw [List.flatMap_append, List.flatMap_cons]
  have hfront : Tidy (front.flatMap value) :=
    tidy_flatMap fun d hd => htidy d (List.mem_append_left _ hd)
  have hback : Tidy (back.flatMap value) :=
    tidy_flatMap fun d hd => htidy d (List.mem_append_right _ (List.mem_cons_of_mem _ hd))
  exact .after hfront (h.append hback)

/-- What stands in the code of a neat node stands in its placeholder. -/
theorem holds_of_fragments {part : Text} (hl : Linked a) (hfile : '{' ∉ file)
    (hneat : ∀ y ∈ a.postorder id, Neat a file y) {fs : List Fragment}
    (hfs : fragments a (total a file) id = some fs)
    (h : part <:+: codeOf a (total a file) fs) : Holds part (total a file id) := by
  rw [total_eq hl, ofNode_of_fragments hfs]
  have hself := hneat id (Arena.self_mem_postorder hl id)
  refine holds_placeholder (sealed_codeOf (hself.code fs hfs) fun f hf c hc => ?_) h
  have hchild := ofChildren_of_fragments hfs f hf c hc
  refine tidy_total hl hfile id hneat _ ?_
  exact Arena.postorder_subset_of_child hl hchild
    (postorder_operand_subset hl c (Arena.self_mem_postorder hl _))

/-- Where texts are neat, a variable that is kept stands in a placeholder of
the contribution. -/
theorem holds_total (hl : Linked a) (hfile : '{' ∉ file) (hname : name ≠ Mark.configVariable)
    (h : Kept a file x name id) :
    (∀ y ∈ a.postorder id, Neat a file y) → Holds ('$' :: name) (total a file id) := by
  induction h with
  | self hvar =>
      intro hneat
      have hfs : fragments a (total a file) x = some [.glue "$" (by decide), .name name] := by
        simp only [fragments, hvar, if_neg hname]
      refine holds_of_fragments hl hfile hneat hfs ?_
      rw [codeOf_cons, codeOf_cons, codeOf_nil, List.append_nil]
      exact List.infix_rfl
  | @part id c hjoined hc _ ih =>
      intro hneat
      have hsub := Arena.postorder_subset_of_child hl hc
      have hall : total a file id = (a.children id).flatMap (total a file) := by
        rw [total_eq hl]
        unfold ofNode
        cases hkind : a.kind id with
        | concat | interpolatedString | arg => rfl
        | _ =>
            rw [hkind] at hjoined
            cases hjoined
      rw [hall]
      refine holds_flatMap (fun d hd => ?_) hc (ih fun y hy => hneat y (hsub hy))
      exact tidy_total hl hfile id hneat d
        (Arena.postorder_subset_of_child hl hd (Arena.self_mem_postorder hl d))
  | @code id c fs f hfs hf hc hkept ih =>
      intro hneat
      have hsub : a.postorder (operand a c) ⊆ a.postorder id := fun y hy =>
        Arena.postorder_subset_of_child hl (ofChildren_of_fragments hfs f hf c hc)
          (postorder_operand_subset hl c hy)
      have hcode := infix_render hkept.plainText?_eq_none (ih fun y hy => hneat y (hsub hy))
      exact holds_of_fragments hl hfile hneat hfs
        (hcode.trans ((Fragment.infix_code_of_operand hc).trans (infix_codeOf hf)))
  | source hfs hf _ hshown =>
      intro hneat
      exact holds_of_fragments hl hfile hneat hfs (hshown.trans (infix_codeOf hf))
  | bare hfs hf hc _ hverbatim hshown =>
      intro hneat
      rw [← hverbatim] at hshown
      exact holds_of_fragments hl hfile hneat hfs
        (hshown.trans ((Fragment.infix_code_of_operand hc).trans (infix_codeOf hf)))
  | @above id path rest segment hcall hargs _ hstays hsegment _ =>
      intro hneat
      have hmem : path ∈ a.childrenByRole id "args" := by
        rw [hargs]
        exact List.mem_cons_self
      have htidy : Tidy (total a file path) := tidy_total hl hfile id hneat path
        (Arena.postorder_subset_of_child hl (Arena.mem_children_of_childrenByRole hmem)
          (Arena.self_mem_postorder hl path))
      obtain ⟨left, hdropped, hholds⟩ :=
        (holds_dropLevels?_iff htidy _).2 ⟨segment, hstays, hsegment⟩
      have hleft : dirnameLeft? a (total a file) id = some left := by
        unfold dirnameLeft?
        rw [hargs]
        exact hdropped
      rw [total_eq hl, ofNode_of_isDirname hcall, dirname_eq, hleft]
      exact hholds

end ComponentPaths.Contribution
