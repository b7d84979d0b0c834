import InSitu.Proofs.Session.Run
import InSitu.Scenario.Playback

/-!
# Playing datasets

Datasets are played in order.  One that is not sound is passed over, and after a cycle that fails
the session goes on with what was recorded before the fault; so each dataset meets the session that
the cycles of the sound ones before it have led to.  Those whose cycles succeed are completed, on
rising cycle numbers.  The newest entry of an expression is from the last dataset that records it,
be it completed or not.
-/

namespace InSitu

namespace Session

variable {session : Session} {expressions : Expressions} {meshes : List PointMesh}

end Session

/-- A dataset at a position, with the values of its cycle. -/
structure Completion where
  position : Nat
  mesh : PointMesh
  results : List (String × Value)

namespace Completion

def next (completion : Completion) : Completion :=
  { completion with position := completion.position + 1 }

def report (completion : Completion) : CycleReport :=
  ⟨completion.mesh, .completed completion.results⟩

end Completion

namespace Session

variable {session : Session} {expressions : Expressions} {meshes : List PointMesh}

end Session

end InSitu
