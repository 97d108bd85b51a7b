import Flowchart.Build

/-!
# The preview page

A page shows the flowchart of a source, drawn by the browser, or the fault
that keeps it from being drawn. A page is a tree of components.
-/

namespace Flowchart

/-- The kinds of component on a page. -/
inductive ComponentKind where
  | div
  | heading
  | paragraph
  | rule
  | preformatted
  | details
  | summary
  deriving DecidableEq, Repr

/-- The name of a component. -/
def ComponentKind.text : ComponentKind → String
  | div => "Div"
  | heading => "H1"
  | paragraph => "P"
  | rule => "Hr"
  | preformatted => "Pre"
  | details => "Details"
  | summary => "Summary"

/-- The properties of a component beside its content. -/
structure Attributes where
  id? : Option String := none
  style : List (String × String) := []
  className? : Option String := none
  hidden : Bool := false
  deriving DecidableEq, Repr

mutual

inductive Component where
  | mk (kind : ComponentKind) (content : Content) (attributes : Attributes)

/-- What a component holds. -/
inductive Content where
  | nothing
  | text (s : String)
  | one (c : Component)
  | many (cs : List Component)

end

namespace Component

def div (content : Content) (attributes : Attributes := {}) : Component :=
  .mk .div content attributes

end Component

/-- The flowchart and its text. -/
def diagramBody (document : String) : Component :=
  .div (.many
    [.div (.text document) { className? := some "mermaid", id? := some "diagram" },
     .mk .details (.many
        [.mk .summary (.text "Mermaid source") {},
         .mk .preformatted (.text document) { id? := some "mermaid-source" }]) {}])

def diagnosticBody (message : String) : Component :=
  .mk .preformatted (.text ("Error: " ++ message))
    { id? := some "diagnostic", style := [("color", "#b00020")] }

/-- The page around a body. -/
def pageAround (source : Path) (body : Component) : Component :=
  .div
    (.many
      [.mk .heading (.text "FlowML Preview") {},
       .mk .paragraph (.text ("Source: " ++ source.text)) {},
       .mk .rule .nothing {},
       .div (.one body) { id? := some "preview" },
       .div .nothing { id? := some "render-status", hidden := true }])
    { style := [("fontFamily", "sans-serif"), ("padding", "2rem")] }

/-- Why there is no page: neither a refusal of the system nor a diagnostic. -/
inductive PageFault where
  | file (fault : FileFault)
  | missingPiece (m : MissingPiece)
  deriving DecidableEq, Repr

def PageFault.message : PageFault → String
  | file fault => fault.message
  | missingPiece m => m.message

/-- The page for the current content of a source. -/
def page (t : FileTree) (source : Path) : Except PageFault Component :=
  match readSource t source with
  | .error (.os e path) => .ok (pageAround source (diagnosticBody (FileFault.os e path).message))
  | .error f => .error (.file f)
  | .ok ls =>
    match transpile ls with
    | .error (.diagnostic d) => .ok (pageAround source (diagnosticBody d.message))
    | .error (.missingPiece m) => .error (.missingPiece m)
    | .ok lines => .ok (pageAround source (diagramBody (renderDocument false lines)))

/-- A preview server: its address, as far as it is given, and what its page is made of. -/
structure Server where
  host? : Option String
  port? : Option Int
  layout : Component

namespace Server

def title : String := "FlowML Preview"

/-- The script that draws flowcharts. -/
def scripts : List String := ["https://cdn.jsdelivr.net/npm/mermaid@10/dist/mermaid.min.js"]

/-- The properties that the page updates once the flowchart is drawn. -/
def callbacks : List String := ["render-status.children"]

def debug : Bool := false

end Server

end Flowchart
