/-
Separators after separators.

A separator that follows another one outside of placeholders leads nowhere.
`Doubles` puts one in, and whatever is made of a path by any number of such
steps is the same path to a reader who goes from segment to segment: there is
one more segment, it is empty, and it is not the last. So the owner of a path
never changes (`properSegments_doubles`), nor does the category of a path that
is found by its parts (`ofParts_doubles`).

But a category is not always found by the parts. Three shapes are compared as
whole texts: the root with one separator, the configuration file, and a
placeholder right after the separator (`IsWhole`). With a second separator none
of them fits, and the path is taken for any other file or directory
(`separators_redundant_iff`).
-/
import Mathlib.Logic.Relation
import ComponentPaths.Proofs.Decision.Glued

namespace ComponentPaths

open Symbolic (Chunk Closed chunks chunksFrom hasPlaceholder isAnchored pieces properSegments
  segments singlePlaceholder? stripRoot?)

-- ======================================================= outside of placeholders

namespace Symbolic

/-- Whether a character stands in a plain chunk. -/
def Chunk.plainly (c : Char) : Chunk → Bool
  | .plain t => t.contains c
  | .hole _ => false

/-- Whether a character stands outside of the placeholders of a text. -/
def outside (c : Char) (t : Text) : Bool :=
  (chunks t).any (Chunk.plainly c)

theorem Chunk.any_plainly_consPlain (c d : Char) (rest : List Chunk) :
    (Chunk.consPlain d rest).any (Chunk.plainly c)
      = (decide (c = d) || rest.any (Chunk.plainly c)) := by
  unfold Chunk.consPlain
  split
  · simp [Chunk.plainly, Bool.or_assoc]
  · simp [Chunk.plainly]

theorem Chunk.any_plainly_consHole (c d : Char) (rest : List Chunk) :
    (Chunk.consHole d rest).any (Chunk.plainly c) = rest.any (Chunk.plainly c) := by
  unfold Chunk.consHole
  split <;> simp [Chunk.plainly]

/-- Where a text is cut outside of placeholders, each part is read on its own. -/
theorem any_plainly_chunksFrom_append (c : Char) {scan : Scan} {t : Text}
    (h : scan.run t = .outside) (u : Text) :
    (chunksFrom scan (t ++ u)).any (Chunk.plainly c)
      = ((chunksFrom scan t).any (Chunk.plainly c) || outside c u) := by
  induction t generalizing scan with
  | nil =>
      have hscan : scan = .outside := h
      subst hscan
      rfl
  | cons d t ih =>
      have hrest := ih h
      rw [List.cons_append]
      simp only [chunksFrom]
      split
      · rw [Chunk.any_plainly_consPlain, Chunk.any_plainly_consPlain, hrest, Bool.or_assoc]
      · rw [List.any_cons, List.any_cons, hrest, Bool.or_assoc]
      · rw [Chunk.any_plainly_consHole, Chunk.any_plainly_consHole, hrest]

theorem outside_append (c : Char) {t : Text} (h : Closed t) (u : Text) :
    outside c (t ++ u) = (outside c t || outside c u) :=
  any_plainly_chunksFrom_append c h u

theorem outside_cons (c : Char) {d : Char} (hd : d ≠ '{') (t : Text) :
    outside c (d :: t) = (decide (c = d) || outside c t) := by
  unfold outside
  rw [chunks_plain hd, Chunk.any_plainly_consPlain]

theorem outside_slash {front : Text} (h : Closed front) (back : Text) :
    outside '/' (front ++ '/' :: back) = true := by
  rw [outside_append _ h, outside_cons _ (by decide)]
  simp

/-- In a text that is one placeholder, nothing stands outside. -/
theorem outside_of_singlePlaceholder? (c : Char) {t : Text}
    (h : (singlePlaceholder? t).isSome = true) : outside c t = false := by
  cases t with
  | nil => rfl
  | cons d t =>
      by_cases hd : d = '{'
      · subst hd
        have hpieces : pieces ('{' :: t) = (chunks ('{' :: t)).map Chunk.toPiece := rfl
        unfold singlePlaceholder? at h
        rw [hpieces] at h
        split at h
        · next heq =>
          obtain ⟨chunk, hchunks, hchunk⟩ := List.map_eq_singleton_iff.1 heq
          unfold outside
          rw [hchunks]
          cases chunk with
          | plain u => cases hchunk
          | hole u => rfl
        · cases h
      · rw [singlePlaceholder?_cons hd] at h
        cases h

/-- A text that is one placeholder is one segment. -/
theorem segments_of_singlePlaceholder? {t : Text} (h : (singlePlaceholder? t).isSome = true) :
    segments t = [t] := by
  have hjoin := joinSlash_segments t
  have hclosed := (segmented_segments t).closed
  cases hs : segments t with
  | nil => exact absurd hs (segments_ne_nil t)
  | cons first rest =>
      rw [hs] at hjoin hclosed
      cases rest with
      | nil =>
          rw [Text.joinSlash_singleton] at hjoin
          rw [hjoin]
      | cons second rest =>
          -- a separator between two segments stands outside
          have hfirst : Closed first := (List.pairwise_cons.1 hclosed).1 second List.mem_cons_self
          rw [Text.joinSlash_cons _ (by simp)] at hjoin
          have hout := outside_of_singlePlaceholder? '/' h
          rw [← hjoin, outside_slash hfirst] at hout
          cases hout

-- ==================================================================== doubling

/-- One separator more, right after one that stands outside of placeholders. -/
inductive Doubles : Text → Text → Prop
  | extra (front back : Text) (shut : Closed front) :
      Doubles (front ++ '/' :: back) (front ++ '/' :: '/' :: back)

/-- Any number of separators more. -/
def Spreads : Text → Text → Prop :=
  Relation.ReflTransGen Doubles

theorem doubles_root (t : Text) : Doubles ('@' :: '/' :: t) ('@' :: '/' :: '/' :: t) :=
  .extra ['@'] t rfl

/-- In an anchored path, separators are put in below the root. -/
theorem Doubles.below_root {t q : Text} (h : Doubles ('@' :: t) q) :
    ∃ front back, Closed front ∧ t = front ++ '/' :: back
      ∧ q = '@' :: (front ++ '/' :: '/' :: back) := by
  generalize hp : '@' :: t = p at h
  cases h with
  | extra front back shut =>
      cases front with
      | nil => cases hp
      | cons c front =>
          obtain ⟨rfl, rfl⟩ := List.cons.inj hp
          exact ⟨front, back, shut, rfl, rfl⟩

/-- What is below the root of an anchored path: all the rest of it, or all but a
separator. -/
theorem exists_stripRoot? (t : Text) :
    ∃ below, stripRoot? ('@' :: t) = some below ∧ (t = below ∨ t = '/' :: below) := by
  cases t with
  | nil => exact ⟨[], rfl, Or.inl rfl⟩
  | cons c t =>
      by_cases hc : c = '/'
      · subst hc
        exact ⟨t, rfl, Or.inr rfl⟩
      · exact ⟨c :: t, stripRoot?_glued hc t, Or.inl rfl⟩

theorem properSegments_doubles {front : Text} (h : Closed front) (back : Text) :
    properSegments (front ++ '/' :: '/' :: back) = properSegments (front ++ '/' :: back) := by
  rw [properSegments_append_slash h, properSegments_append_slash h, properSegments_cons_slash]

end Symbolic

open Symbolic (Doubles Spreads)

namespace Category

-- ======================================================================= parts

/-- The category that the parts of an anchored path give it. -/
def ofParts (path : Text) : Category :=
  if hasWildcard path then .glob else ofAnchored path

theorem hasWildcard_eq_outside {t : Text} (h : '@' ∉ t) :
    hasWildcard t = Symbolic.outside '*' t := by
  unfold hasWildcard Symbolic.outside
  rw [Symbolic.pieces_of_not_anchored h, List.any_map]
  congr 1
  funext chunk
  cases chunk with
  | plain t => rfl
  | hole t => rfl

/-- The parts of a path are the same with one more separator. -/
theorem ofParts_doubles {front back : Text} (h : Closed front)
    (hat : '@' ∉ front ++ '/' :: back) :
    ofParts ('@' :: (front ++ '/' :: '/' :: back)) = ofParts ('@' :: (front ++ '/' :: back)) := by
  have hat' : '@' ∉ front ++ '/' :: '/' :: back := by simpa using hat
  have hroot : Closed ('@' :: front) := h
  have hwild : hasWildcard ('@' :: (front ++ '/' :: '/' :: back))
      = hasWildcard ('@' :: (front ++ '/' :: back)) := by
    have hslash : '/' ≠ '{' := by decide
    rw [hasWildcard_root hat, hasWildcard_root hat', hasWildcard_eq_outside hat,
      hasWildcard_eq_outside hat']
    simp [Symbolic.outside_append _ h, Symbolic.outside_cons _ hslash]
  have hholes : hasPlaceholder ('@' :: (front ++ '/' :: '/' :: back))
      = hasPlaceholder ('@' :: (front ++ '/' :: back)) := by
    rw [Bool.eq_iff_iff, Symbolic.hasPlaceholder_iff, Symbolic.hasPlaceholder_iff]
    simp
  have hcut : segments ('@' :: (front ++ '/' :: back)) = segments ('@' :: front) ++ segments back :=
    Symbolic.segments_append_slash hroot back
  have hcut' : segments ('@' :: (front ++ '/' :: '/' :: back))
      = segments ('@' :: front) ++ [] :: segments back := by
    rw [← Symbolic.segments_cons_slash]
    exact Symbolic.segments_append_slash hroot ('/' :: back)
  have hne := Symbolic.segments_ne_nil back
  have hlast : (segments ('@' :: (front ++ '/' :: '/' :: back))).getLastD []
      = (segments ('@' :: (front ++ '/' :: back))).getLastD [] := by
    rw [hcut, hcut', List.getLastD_eq_getLast?, List.getLastD_eq_getLast?,
      List.getLast?_append_of_ne_nil _ hne, List.getLast?_append_of_ne_nil _ (by simp),
      List.getLast?_cons_of_ne_nil hne]
  have hdirs : hasDynamicDir ('@' :: (front ++ '/' :: '/' :: back))
      = hasDynamicDir ('@' :: (front ++ '/' :: back)) := by
    unfold hasDynamicDir
    rw [hcut, hcut', List.dropLast_append_of_ne_nil hne, List.dropLast_append_of_ne_nil (by simp),
      List.dropLast_cons_of_ne_nil hne, List.any_append, List.any_append, List.any_cons]
    rfl
  unfold ofParts ofAnchored
  rw [hwild, hholes, hlast, hdirs]

-- ================================================================ whole texts

/-- The shapes that are compared as whole texts. -/
def IsWhole (path : Text) : Prop :=
  path = "@/" ∨ path = "@/config.php"
    ∨ ∃ t, path = '@' :: '/' :: t ∧ (singlePlaceholder? t).isSome = true

/-- A whole text has one separator outside of placeholders. -/
theorem IsWhole.exists_below {path : Text} (h : IsWhole path) :
    ∃ t, path = '@' :: '/' :: t ∧ Symbolic.outside '/' t = false := by
  rcases h with rfl | rfl | ⟨t, rfl, hsome⟩
  · exact ⟨[], rfl, rfl⟩
  · exact ⟨"config.php", rfl, by decide⟩
  · exact ⟨t, rfl, Symbolic.outside_of_singlePlaceholder? '/' hsome⟩

theorem not_isWhole_doubled {front : Text} (h : Closed front) (back : Text) :
    ¬IsWhole ('@' :: (front ++ '/' :: '/' :: back)) := by
  intro hwhole
  obtain ⟨t, heq, hout⟩ := hwhole.exists_below
  have htail := (List.cons.inj heq).2
  cases front with
  | nil =>
      cases htail
      rw [Symbolic.outside_cons _ (by decide)] at hout
      simp at hout
  | cons c front =>
      obtain ⟨rfl, rfl⟩ := List.cons.inj htail
      have hfront : Closed front := h
      have hslash := Symbolic.outside_slash hfront ('/' :: back)
      exact absurd (hslash.symm.trans hout) (by simp)

/-- Elsewhere a path with a separator has the category of its parts. -/
theorem ofPath?_of_not_whole {front back : Text} (h : Closed front)
    (hat : '@' ∉ front ++ '/' :: back) (hwhole : ¬IsWhole ('@' :: (front ++ '/' :: back))) :
    ofPath? ('@' :: (front ++ '/' :: back)) = some (ofParts ('@' :: (front ++ '/' :: back))) := by
  have hslash := Symbolic.outside_slash h back
  generalize front ++ '/' :: back = rest at hat hwhole hslash
  have hdir : rest ≠ [] ∧ rest ≠ "/" := by
    refine ⟨?_, fun heq => hwhole (Or.inl (congrArg _ heq))⟩
    rintro rfl
    cases hslash
  have hconfig : rest ≠ "/config.php" := fun heq => hwhole (Or.inr (Or.inl (congrArg _ heq)))
  obtain ⟨t, hstrip, hrest⟩ := Symbolic.exists_stripRoot? rest
  have hat' : '@' ∉ t := by
    rcases hrest with rfl | rfl
    · exact hat
    · simpa using hat
  have hwild : hasWildcard t = hasWildcard ('@' :: rest) := by
    rw [hasWildcard_root hat]
    rcases hrest with rfl | rfl
    · rfl
    · rw [hasWildcard_slash hat']
  have hsingle : ¬(singlePlaceholder? t).isSome = true := by
    intro hsome
    rcases hrest with rfl | rfl
    · rw [Symbolic.outside_of_singlePlaceholder? '/' hsome] at hslash
      cases hslash
    · exact hwhole (Or.inr (Or.inr ⟨t, rfl, hsome⟩))
  rw [ofPath?_root hdir hconfig hstrip hrest]
  unfold ofText ofParts
  rw [if_neg hat', if_neg hsingle, hwild]

/-- One placeholder right below the root, as a whole and by its parts. -/
theorem ofPath?_placeholder {t : Text} (hat : '@' ∉ t)
    (h : (singlePlaceholder? t).isSome = true) :
    ofPath? ('@' :: '/' :: t) = some .fullRelativePath
      ∧ ofParts ('@' :: '/' :: t) = .filenameSubstitution := by
  have hwild : hasWildcard t = false := by
    rw [hasWildcard_eq_outside hat, Symbolic.outside_of_singlePlaceholder? _ h]
  have hbrace : '{' ∈ t := by
    obtain ⟨code, hcode⟩ := Option.isSome_iff_exists.1 h
    exact Symbolic.brace_of_singlePlaceholder? hcode
  constructor
  · cases t with
    | nil => cases hbrace
    | cons c t =>
        have hconfig : c :: t ≠ "config.php" := by
          intro heq
          rw [heq] at hbrace
          exact absurd hbrace (by decide)
        rw [ofPath?_separated hconfig]
        unfold ofText
        rw [if_neg hat, hwild, if_pos h]
        rfl
  · have hat' : '@' ∉ '/' :: t := by simpa using hat
    have hholes : hasPlaceholder ('@' :: '/' :: t) = true :=
      Symbolic.hasPlaceholder_iff.2 (by simp [hbrace])
    unfold ofParts ofAnchored hasDynamicDir
    rw [hasWildcard_root hat', hasWildcard_slash hat, hwild, hholes, Symbolic.segments_root,
      Symbolic.segments_of_singlePlaceholder? h]
    rfl

/-- A whole text has a category of its own, which its parts do not give it. -/
theorem ofPath?_ne_of_whole {path : Text} (hat : '@' ∉ path.tail) (h : IsWhole path) :
    ofPath? path ≠ some (ofParts path) := by
  rcases h with rfl | rfl | ⟨t, rfl, hsome⟩
  · decide
  · decide
  · have hat' : '@' ∉ t := by simpa using hat
    obtain ⟨hpath, hparts⟩ := ofPath?_placeholder hat' hsome
    rw [hpath, hparts]
    decide

-- ==================================================================== spreading

/-- What a path and the same path with more separators have in common. -/
structure SameParts (p q : Text) : Prop where
  anchored : isAnchored q = true
  rootFree : '@' ∉ q.tail
  proper : properSegments q.tail = properSegments p.tail
  parts : ofParts q = ofParts p

theorem exists_of_isAnchored {p : Text} (h : isAnchored p = true) : ∃ t, p = '@' :: t := by
  cases p with
  | nil => cases h
  | cons c t =>
      have hc : c = '@' := by simpa [isAnchored] using h
      exact ⟨t, by rw [hc]⟩

/-- One separator more keeps the parts. The longer path has the category of its
parts, and so has the shorter one unless it is a whole text. -/
theorem SameParts.doubles {p q r : Text} (h : SameParts p q) (hr : Doubles q r) :
    SameParts p r ∧ ofPath? r = some (ofParts p)
      ∧ (¬IsWhole q → ofPath? q = some (ofParts p)) := by
  obtain ⟨t, rfl⟩ := exists_of_isAnchored h.anchored
  obtain ⟨front, back, hshut, rfl, rfl⟩ := hr.below_root
  have hat : '@' ∉ front ++ '/' :: back := h.rootFree
  have hat' : '@' ∉ front ++ '/' :: '/' :: back := by simpa using hat
  have hparts := (ofParts_doubles hshut hat).trans h.parts
  refine ⟨⟨rfl, hat', ?_, hparts⟩, ?_, fun hwhole => ?_⟩
  · exact (Symbolic.properSegments_doubles hshut back).trans h.proper
  · rw [ofPath?_of_not_whole hshut hat' (not_isWhole_doubled hshut back), hparts]
  · rw [ofPath?_of_not_whole hshut hat hwhole, h.parts]

/-- Any number of separators more: the parts stay, and as soon as there is one, the
category is that of the parts. -/
theorem SameParts.spreads {p q : Text} (h : SameParts p p) (hq : Spreads p q) :
    SameParts p q ∧ (q ≠ p → ofPath? q = some (ofParts p)
      ∧ (¬IsWhole p → ofPath? p = some (ofParts p))) := by
  induction hq with
  | refl => exact ⟨h, fun hne => absurd rfl hne⟩
  | @tail q r _ hr ih =>
      obtain ⟨hsame, hcategory, hbefore⟩ := ih.1.doubles hr
      refine ⟨hsame, fun _ => ⟨hcategory, fun hwhole => ?_⟩⟩
      by_cases hq : q = p
      · subst hq
        exact hbefore hwhole
      · exact (ih.2 hq).2 hwhole

end Category

/-- The owner of an anchored path depends on its proper segments. -/
theorem ComponentTree.resolve?_of_properSegments (tree : ComponentTree) {t u : Text}
    (h : properSegments t = properSegments u) :
    tree.resolve? ('@' :: t) = tree.resolve? ('@' :: u) := by
  have hproper : ∀ v below, (v = below ∨ v = '/' :: below) →
      properSegments below = properSegments v := by
    rintro v below (rfl | rfl)
    · rfl
    · exact (Symbolic.properSegments_cons_slash below).symm
  obtain ⟨below, hbelow, ht⟩ := Symbolic.exists_stripRoot? t
  obtain ⟨below', hbelow', hu⟩ := Symbolic.exists_stripRoot? u
  unfold resolve?
  rw [hbelow, hbelow']
  dsimp only
  rw [hproper t below ht, hproper u below' hu, h]

/-- Separators after separators, outside of placeholders, make no difference to the
owner of an anchored path. They make one to its category just where the path is
compared as a whole text: then it is no longer the root, no longer the configuration
file, and no longer one unknown value, but a directory, a file, or a file of an unknown
name. -/
theorem Category.separators_redundant_iff {p q : Text} (hp : isAnchored p = true)
    (hroot : '@' ∉ p.tail) (hq : Spreads p q) :
    (∀ tree : ComponentTree, tree.resolve? q = tree.resolve? p)
    ∧ (ofPath? q = ofPath? p ↔ q = p ∨ ¬IsWhole p)
    ∧ (q ≠ p → (p = "@/" → ofPath? q = some .simpleDir)
      ∧ (p = "@/config.php" → ofPath? q = some .simpleFile)
      ∧ ∀ t, p = '@' :: '/' :: t → (singlePlaceholder? t).isSome = true →
        ofPath? q = some .filenameSubstitution) := by
  obtain ⟨hsame, hspread⟩ := SameParts.spreads ⟨hp, hroot, rfl, rfl⟩ hq
  refine ⟨fun tree => ?_, ⟨fun heq => ?_, ?_⟩, fun hne => ?_⟩
  · obtain ⟨t, rfl⟩ := exists_of_isAnchored hp
    obtain ⟨u, rfl⟩ := exists_of_isAnchored hsame.anchored
    exact tree.resolve?_of_properSegments hsame.proper
  · by_cases hne : q = p
    · exact Or.inl hne
    · refine Or.inr fun hwhole => ofPath?_ne_of_whole hroot hwhole ?_
      rw [← heq, (hspread hne).1]
  · rintro (rfl | hwhole)
    · rfl
    · by_cases hne : q = p
      · rw [hne]
      · rw [(hspread hne).1, (hspread hne).2 hwhole]
  · have hcategory := (hspread hne).1
    refine ⟨?_, ?_, ?_⟩
    · rintro rfl
      rw [hcategory]
      decide
    · rintro rfl
      rw [hcategory]
      decide
    · rintro t rfl hsome
      rw [hcategory, (ofPath?_placeholder (by simpa using hroot) hsome).2]

/-- Separators in a placeholder are none of the path, and three others make no
difference. -/
theorem Category.separators_redundant_iff_module :
    Spreads "@/mod/\x7bf('//')\x7d/lib.php" "@///mod/\x7bf('//')\x7d//lib.php"
    ∧ (∀ tree : ComponentTree, tree.resolve? "@///mod/\x7bf('//')\x7d//lib.php"
      = tree.resolve? "@/mod/\x7bf('//')\x7d/lib.php")
    ∧ ofPath? "@///mod/\x7bf('//')\x7d//lib.php" = some .simpleDynamicFile := by
  have hlast : Doubles "@///mod/\x7bf('//')\x7d/lib.php" "@///mod/\x7bf('//')\x7d//lib.php" :=
    .extra "@///mod/\x7bf('//')\x7d" "lib.php" (by decide)
  have hspread : Spreads "@/mod/\x7bf('//')\x7d/lib.php" "@///mod/\x7bf('//')\x7d//lib.php" :=
    .tail (.tail (.single (Symbolic.doubles_root _)) (Symbolic.doubles_root _)) hlast
  obtain ⟨howner, hcategory, -⟩ :=
    Category.separators_redundant_iff (by decide) (by decide) hspread
  have hnot : ¬IsWhole "@/mod/\x7bf('//')\x7d/lib.php" := by
    intro hwhole
    obtain ⟨t, heq, hout⟩ := hwhole.exists_below
    cases heq
    exact absurd hout (by decide)
  exact ⟨hspread, howner, by rw [hcategory.2 (Or.inr hnot)]; decide⟩

/-- With two separators the configuration file is a file like any other, the root
a directory like any other, and an unknown path an unknown file name. -/
theorem Category.doubled_separator_missed :
    (Spreads "@/config.php" "@//config.php" ∧ ofPath? "@/config.php" = some .config
      ∧ ofPath? "@//config.php" = some .simpleFile)
    ∧ (Spreads "@/" "@//" ∧ ofPath? "@/" = some .dirRoot ∧ ofPath? "@//" = some .simpleDir)
    ∧ (Spreads "@/\x7b$path\x7d" "@//\x7b$path\x7d"
      ∧ ofPath? "@/\x7b$path\x7d" = some .fullRelativePath
      ∧ ofPath? "@//\x7b$path\x7d" = some .filenameSubstitution) := by
  have hroot : ∀ t : Text, Spreads ('@' :: '/' :: t) ('@' :: '/' :: '/' :: t) := fun t =>
    .single (Symbolic.doubles_root t)
  exact ⟨⟨hroot _, by decide, by decide⟩, ⟨hroot _, by decide, by decide⟩,
    ⟨hroot _, by decide, by decide⟩⟩

end ComponentPaths
