import DesignSystem.Text.Basic
import DesignSystem.Text.ClusterTable

/-!
# User-perceived characters

A text is cut into clusters: a character with the marks that extend it, the characters that prepend
to it, and pictographs linked by joiners. Syllable blocks and flags, which have no case, are not
gathered into one cluster.
-/

set_option autoImplicit false

namespace DesignSystem.Text

/-- A user-perceived character. -/
abbrev Cluster := List Char

/-- What a character does at the border of a cluster. -/
inductive ClusterRole
  | control | extend | joiner | spacingMark | prepend | pictograph | other
  deriving DecidableEq

/-- The role of a character. -/
def clusterRole (c : Char) : ClusterRole :=
  let n := c.toNat
  if n < 128 then (if n < 32 ∨ n = 127 then .control else .other)
  else if n = 0x200d then .joiner
  else if inRanges controlRanges n then .control
  else if inRanges extendRanges n then .extend
  else if inRanges spacingMarkRanges n then .spacingMark
  else if inRanges prependRanges n then .prepend
  else if inRanges pictographRanges n then .pictograph
  else .other

/-- What the rules have to know of the cluster read so far: the last character, and whether the
cluster is a pictograph with marks, or such a one followed by a joiner. -/
structure ClusterState where
  last : Char
  pictographOpen : Bool
  joined : Bool

/-- The state after a first character. -/
def ClusterState.start (c : Char) : ClusterState :=
  ⟨c, clusterRole c = .pictograph, false⟩

/-- Whether `c` continues the cluster. -/
def ClusterState.continues (s : ClusterState) (c : Char) : Bool :=
  match clusterRole s.last, clusterRole c with
  | .control, _ => s.last = '\r' && c = '\n'
  | _, .control => false
  | _, .extend | _, .joiner | _, .spacingMark => true
  | .prepend, _ => true
  | .joiner, .pictograph => s.joined
  | _, _ => false

/-- The state after `c` has continued the cluster. -/
def ClusterState.push (s : ClusterState) (c : Char) : ClusterState :=
  match clusterRole c with
  | .extend => ⟨c, s.pictographOpen, false⟩
  | .joiner => ⟨c, false, s.pictographOpen⟩
  | .pictograph => ⟨c, true, false⟩
  | _ => ⟨c, false, false⟩

/-- The clusters of the characters after a cluster `current` (last character first). -/
def clustersFrom (current : List Char) (state : ClusterState) : List Char → List Cluster
  | [] => [current.reverse]
  | c :: cs =>
    if state.continues c then clustersFrom (c :: current) (state.push c) cs
    else current.reverse :: clustersFrom [c] (.start c) cs

/-- The clusters of a text, in order. -/
def clusters : List Char → List Cluster
  | [] => []
  | c :: cs => clustersFrom [c] (.start c) cs

end DesignSystem.Text
