import Embers.State.FocusFrame
import Embers.State.Links

/-!
# Outlines

What focusing leaves alone of a layout: the session and the parent of every node, and the root and the
popups of every session.
-/

namespace Embers

/-- Where a node belongs. -/
structure NodeOutline where
  sessionId : SessionId
  parent : Option NodeId
  deriving DecidableEq, Repr

def Node.outline (node : Node) : NodeOutline := ⟨node.sessionId, node.parent⟩

theorem frame_outline (node : Node) : node.frame.outline = node.outline := by cases node <;> rfl

namespace ServerState

section Outlines

variable (s : ServerState)

def outline (nodeId : NodeId) : Option NodeOutline := s.nodes[nodeId]?.map Node.outline

/-- The root of a session and its popups. -/
def sessionRoots (sessionId : SessionId) : Option (NodeId × List FloatingId) :=
  s.sessions[sessionId]?.map fun session ↦ (session.rootNode, session.floating)

end Outlines

/-- Every floating window is listed by the session it names. -/
def FloatingListed (s : ServerState) : Prop :=
  ∀ (floatingId : FloatingId) (floating : FloatingWindow), s.floating[floatingId]? = some floating →
    ∃ session, s.sessions[floating.sessionId]? = some session ∧ floatingId ∈ session.floating

variable {s s' : ServerState} {nodeId : NodeId}

theorem outline_of_get {n : Node} (h : s.nodes[nodeId]? = some n) :
    s.outline nodeId = some n.outline := by rw [outline, h, Option.map_some]

theorem sessionRoots_of_get {sessionId : SessionId} {session : Session}
    (h : s.sessions[sessionId]? = some session) :
    s.sessionRoots sessionId = some (session.rootNode, session.floating) := by
  rw [sessionRoots, h, Option.map_some]

theorem isSessionRoot_iff_sessionRoots : s.isSessionRoot nodeId = true ↔
    ∃ (sessionId : SessionId) (floating : List FloatingId),
      s.sessionRoots sessionId = some (nodeId, floating) := by
  rw [isSessionRoot_iff]
  constructor
  · rintro ⟨sessionId, session, hsession, rfl⟩
    exact ⟨sessionId, session.floating, sessionRoots_of_get hsession⟩
  · rintro ⟨sessionId, floating, h⟩
    obtain ⟨session, hsession, heq⟩ := Option.map_eq_some_iff.mp h
    exact ⟨sessionId, session, hsession, congrArg Prod.fst heq⟩

/-! ## Focusing -/

theorem outline_frame (s : ServerState) : s.frame.outline = s.outline := by
  funext nodeId
  rw [outline, frame, Std.ExtTreeMap.getElem?_map, Option.map_map, outline]
  exact congrArg (Option.map · _) (funext frame_outline)

theorem sessionRoots_frame (s : ServerState) : s.frame.sessionRoots = s.sessionRoots := by
  funext sessionId
  rw [sessionRoots, frame, Std.ExtTreeMap.getElem?_map, Option.map_map]
  rfl

namespace SameFrame

theorem outline (h : SameFrame s s') : s.outline = s'.outline := by
  rw [← outline_frame, h, outline_frame]

theorem sessionRoots (h : SameFrame s s') : s.sessionRoots = s'.sessionRoots := by
  rw [← sessionRoots_frame, h, sessionRoots_frame]

end SameFrame

end ServerState

end Embers
