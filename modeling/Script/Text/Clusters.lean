import Script.Text.Clusters.Joint

/-!
# Clusters of characters

A text falls into extended grapheme clusters, each of them what a reader
takes for one character. Whether a character goes on with the cluster before
it depends on the character just before it, on whether that one belongs to a
pictograph, a flag or a conjunct that is not complete, and on nothing else.
-/

set_option autoImplicit false

namespace Script.Text

/-- What the end of a text can be the beginning of. -/
inductive Pending where
  | nothing
  | pictograph
  | joined
  | flag
  | consonant
  | linked
  deriving DecidableEq

def Pending.after : Pending → Joint → Pending
  | _, .pictograph => .pictograph
  | _, .consonant => .consonant
  | .flag, .regional => .nothing
  | _, .regional => .flag
  | .pictograph, .mark | .pictograph, .linker | .pictograph, .nonJoiner => .pictograph
  | .pictograph, .joiner => .joined
  | .consonant, .mark | .consonant, .joiner => .consonant
  | .consonant, .linker => .linked
  | .linked, .mark | .linked, .joiner | .linked, .linker => .linked
  | _, _ => .nothing

/-- Whether a character goes on with the cluster before it. The first rule
that speaks of the two characters decides. -/
def goesOn (pending : Pending) : Joint → Joint → Bool
  | .carriageReturn, .lineFeed => true
  | .carriageReturn, _ | .lineFeed, _ | .control, _ => false
  | _, .carriageReturn | _, .lineFeed | _, .control => false
  | .lead, .lead | .lead, .vowel | .lead, .openSyllable | .lead, .closedSyllable => true
  | .openSyllable, .vowel | .openSyllable, .trail | .vowel, .vowel | .vowel, .trail => true
  | .closedSyllable, .trail | .trail, .trail => true
  | _, .mark | _, .linker | _, .nonJoiner | _, .joiner | _, .spacing => true
  | .preceding, _ => true
  | _, .consonant => pending == .linked
  | _, .pictograph => pending == .joined
  | _, .regional => pending == .flag
  | _, _ => false

def clustersAfter (pending : Pending) (last : Joint) : List Char → List Char × List (List Char)
  | [] => ([], [])
  | c :: rest =>
    let joint := Joint.ofChar c
    let after := clustersAfter (pending.after joint) joint rest
    if goesOn pending last joint then (c :: after.1, after.2)
    else ([], (c :: after.1) :: after.2)

def clusters : List Char → List (List Char)
  | [] => []
  | c :: rest =>
    let joint := Joint.ofChar c
    let after := clustersAfter (Pending.nothing.after joint) joint rest
    (c :: after.1) :: after.2

theorem clustersAfter_append (pending : Pending) (last : Joint) (text : List Char) :
    (clustersAfter pending last text).1 ++ (clustersAfter pending last text).2.flatten = text := by
  induction text generalizing pending last with
  | nil => rfl
  | cons c rest ih =>
    have h := ih (pending.after (Joint.ofChar c)) (Joint.ofChar c)
    simp only [clustersAfter]
    split <;> simpa using h

theorem flatten_clusters (text : List Char) : (clusters text).flatten = text := by
  cases text with
  | nil => rfl
  | cons c rest =>
    rw [clusters, List.flatten_cons, List.cons_append]
    exact congrArg _ (clustersAfter_append _ _ rest)

end Script.Text
