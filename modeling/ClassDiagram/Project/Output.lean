import ClassDiagram.Preview
import ClassDiagram.Project.Document
import ClassDiagram.Project.Replay
import ClassDiagram.Settings

/-! From a project file to its outputs: the declarations and the preview. -/

namespace ClassDiagram.LoadedProject

def parse (source : String) : Except DiagramError LoadedProject := do replay (← Project.read source)

def generate (p : LoadedProject) (settings : Settings) : String :=
  p.model.generateAll settings.codegen

def reroute (p : LoadedProject) (settings : Settings) : Except DiagramError (Routes Float32) :=
  (p.model.reroute (Orthogonal.router settings.router) p.shapes).mapError .route

def draw (p : LoadedProject) (routes : Routes Float32) : Except DiagramError String := do
  let document ← (Preview.render p.model p.shapes routes).mapError .route
  return document.write (Decimal.text Decimal.plain)

/-- The preview with fresh routes. -/
def preview (p : LoadedProject) (settings : Settings) : Except DiagramError String := do
  p.draw (← p.reroute settings)

end ClassDiagram.LoadedProject
