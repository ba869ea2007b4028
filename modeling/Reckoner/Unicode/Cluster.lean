import Reckoner.Unicode.ClusterTables

/-! # Grapheme clusters

A cluster is what a reader takes for one character: a letter with its accents,
a flag, a family of joined pictographs. Text is cut into clusters from left to
right; whether a boundary lies before a character depends only on the text up
to that character. -/

namespace Reckoner.Unicode

/-- The part a character plays in a cluster. -/
inductive ClusterClass where
  | carriageReturn
  | lineFeed
  | control
  | extend
  | joiner
  | regional
  | prepend
  | spacingMark
  | leading
  | vowel
  | trailing
  | syllableOpen
  | syllableClosed
  | pictograph
  | consonant
  | other
  deriving DecidableEq, Repr

/-- The class of a character. A precomposed Hangul syllable is open when it
has no trailing jamo, which is every twenty-eighth one. -/
def clusterClass (c : Char) : ClusterClass :=
  let code := c.toNat
  if code = 0x0d then .carriageReturn
  else if code = 0x0a then .lineFeed
  else if 0x20 ≤ code && code < 0x7f then .other
  else if clusterControl.contains c then .control
  else if code = 0x200d then .joiner
  else if 0x1f1e6 ≤ code && code ≤ 0x1f1ff then .regional
  else if clusterExtend.contains c then .extend
  else if clusterSpacingMark.contains c then .spacingMark
  else if clusterPrepend.contains c then .prepend
  else if 0xac00 ≤ code && code ≤ 0xd7a3 then
    if (code - 0xac00) % 28 = 0 then .syllableOpen else .syllableClosed
  else if clusterLeading.contains c then .leading
  else if clusterVowel.contains c then .vowel
  else if clusterTrailing.contains c then .trailing
  else if pictographic.contains c then .pictograph
  else if conjunctConsonant.contains c then .consonant
  else .other

/-- How far the text at hand has come toward a sequence of pictographs. -/
inductive PictographProgress where
  | none
  | base
  | joined
  deriving DecidableEq, Repr

/-- How far the text at hand has come toward a conjunct of consonants. -/
inductive ConjunctProgress where
  | none
  | consonant
  | linked
  deriving DecidableEq, Repr

/-- What the cluster rules remember of the text before a position. -/
structure ClusterContext where
  last : Option ClusterClass
  pictograph : PictographProgress
  conjunct : ConjunctProgress
  /-- The number of regional indicators that end the text is odd. -/
  oddRegional : Bool
  deriving DecidableEq, Repr

namespace ClusterContext

def start : ClusterContext := ⟨none, .none, .none, false⟩

/-- The context after one more character. -/
def advance (context : ClusterContext) (c : Char) : ClusterContext :=
  let cls := clusterClass c
  { last := some cls
    pictograph :=
      match cls, context.pictograph with
      | .pictograph, _ => .base
      | .extend, .base => .base
      | .joiner, .base => .joined
      | _, _ => .none
    conjunct :=
      match cls, context.conjunct with
      | .consonant, _ => .consonant
      | .joiner, progress => progress
      | .extend, .none => .none
      | .extend, progress =>
          if conjunctLinker.contains c then .linked
          else if c.toNat = 0x200c then .none
          else progress
      | _, _ => .none
    oddRegional :=
      match cls with
      | .regional => !context.oddRegional
      | _ => false }

/-- The character continues the cluster that the text ends with. -/
def continues (context : ClusterContext) (c : Char) : Bool :=
  match context.last with
  | none => false
  | some last =>
      match last, clusterClass c with
      | .carriageReturn, .lineFeed => true
      | .control, _ | .carriageReturn, _ | .lineFeed, _ => false
      | _, .control | _, .carriageReturn | _, .lineFeed => false
      | .leading, .leading | .leading, .vowel | .leading, .syllableOpen
      | .leading, .syllableClosed => true
      | .syllableOpen, .vowel | .syllableOpen, .trailing
      | .vowel, .vowel | .vowel, .trailing => true
      | .syllableClosed, .trailing | .trailing, .trailing => true
      | _, .extend | _, .joiner | _, .spacingMark => true
      | .prepend, _ => true
      | _, .consonant => context.conjunct = .linked
      | .joiner, .pictograph => context.pictograph = .joined
      | .regional, .regional => context.oddRegional
      | _, _ => false

end ClusterContext

/-- Cuts the rest of a text; `current` is the cluster begun so far, backwards. -/
def clustersFrom (context : ClusterContext) (current : List Char) : List Char → List (List Char)
  | [] => if current.isEmpty then [] else [current.reverse]
  | c :: rest =>
      if context.continues c then clustersFrom (context.advance c) (c :: current) rest
      else if current.isEmpty then clustersFrom (context.advance c) [c] rest
      else current.reverse :: clustersFrom (context.advance c) [c] rest

/-- The clusters of a text in order. -/
def clusters (text : List Char) : List (List Char) :=
  clustersFrom .start [] text

theorem flatten_clustersFrom (context : ClusterContext) (current text : List Char) :
    (clustersFrom context current text).flatten = current.reverse ++ text := by
  induction text generalizing context current with
  | nil => cases current <;> simp [clustersFrom]
  | cons c rest ih =>
      simp only [clustersFrom]
      split
      · simp [ih]
      · split
        · rename_i h; simp [ih, List.isEmpty_iff.mp h]
        · simp [ih]

theorem ne_nil_of_mem_clustersFrom {context : ClusterContext} {current text cluster : List Char}
    (member : cluster ∈ clustersFrom context current text) : cluster ≠ [] := by
  induction text generalizing context current with
  | nil =>
      cases current with
      | nil => simp [clustersFrom] at member
      | cons c before => simp [clustersFrom] at member; simp [member]
  | cons c rest ih =>
      simp only [clustersFrom] at member
      split at member
      · exact ih member
      · split at member
        · exact ih member
        · rename_i started
          rcases List.mem_cons.mp member with rfl | later
          · simpa using started
          · exact ih later

/-- No cluster is empty. -/
theorem ne_nil_of_mem_clusters {text cluster : List Char} (member : cluster ∈ clusters text) :
    cluster ≠ [] :=
  ne_nil_of_mem_clustersFrom member

/-- Nothing is lost between clusters. -/
@[simp] theorem flatten_clusters (text : List Char) : (clusters text).flatten = text := by
  simp [clusters, flatten_clustersFrom]

end Reckoner.Unicode
