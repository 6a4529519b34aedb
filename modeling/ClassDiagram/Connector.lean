import ClassDiagram.Model.Basic

/-! Relating two entities by picking one after the other. The first pick selects the source. The
same entity again cancels, another one is related to the source, and after that the tool is idle
whether or not the model allowed it. -/

namespace ClassDiagram

structure Connector where
  source : Option EntityId := none
  kind : RelationshipKind := .association
  deriving DecidableEq, Repr

inductive Pick where
  | selected (source : EntityId)
  | cancelled
  | created (relationship : RelationshipId)
  deriving DecidableEq, Repr

namespace Connector

def ofKind (kind : RelationshipKind) : Connector := { kind }

/-- A pending source is kept when the kind changes. -/
def setKind (tool : Connector) (kind : RelationshipKind) : Connector := { tool with kind }

def reset (tool : Connector) : Connector := { tool with source := none }

def pick (tool : Connector) (m : Model) (entity : EntityId) :
    Except ModelError Pick × Connector × Model :=
  match tool.source with
  | none => (.ok (.selected entity), { tool with source := some entity }, m)
  | some source =>
    if source = entity then (.ok .cancelled, tool.reset, m)
    else
      match m.relate source entity tool.kind "" "" "" with
      | .ok (id, next) => (.ok (.created id), tool.reset, next)
      | .error e => (.error e, tool.reset, m)

end Connector

end ClassDiagram
