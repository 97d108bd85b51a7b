import Flowchart.Schema.Coerce
import Flowchart.Statement

/-!
# Statements as data

A statement may also be given as structured data: an object with a name, a
line number and a list of parameter tokens. Keys beyond these are ignored, but
the keys of a token have to be texts without surrogates.
-/

namespace Flowchart

/-- A token given as data. Its text may hold surrogates, which no source does. -/
structure TokenData where
  kind : Kind
  value : RawText
  line : Int
  deriving DecidableEq, Repr

/-- A statement given as data. -/
structure StatementData where
  name : CallName
  line : Int
  params : List TokenData
  deriving DecidableEq, Repr

namespace Schema

def tokenOfEntries (entries : List (Value × Value)) : Checked TokenData :=
  let kind := required entries "kind" fun v => here (asChoice Kind.all Kind.text v)
  let value := required entries "value" fun v => here (asText v)
  let line := required entries "line_number" fun v => here (asInt v)
  let stray := keyFaults (fun _ => true) entries
  withKeys entries <|
    match kind, value, line, stray with
    | .ok k, .ok s, .ok n, [] => .ok ⟨k, s, n⟩
    | _, _, _, _ => .error (faults kind ++ faults value ++ faults line ++ stray)

def tokenOfValue : Value → Checked TokenData
  | .map entries => tokenOfEntries entries
  | _ => .error [⟨[], .notRecord "Token"⟩]

/-- The tokens of a list, or the faults of all elements. -/
def tokensFrom (i : Nat) : List Value → Checked (List TokenData)
  | [] => .ok []
  | v :: vs =>
    let t := within (.index i) (tokenOfValue v)
    let ts := tokensFrom (i + 1) vs
    match t, ts with
    | .ok t, .ok ts => .ok (t :: ts)
    | _, _ => .error (faults t ++ faults ts)

def tokensOfValue : Value → Checked (List TokenData)
  | .list vs => tokensFrom 0 vs
  | _ => .error [⟨[], .notList⟩]

/-- The parameters of a statement; there are none when the key is absent. -/
def parametersOfEntries (entries : List (Value × Value)) : Checked (List TokenData) :=
  match lookup? entries "parameters" with
  | none => .ok []
  | some v => within (.key "parameters") (tokensOfValue v)

/-- The name of the schema in headings. -/
def statementModel : String := "CallExpr"

def statementOfValue : Value → Checked StatementData
  | .map entries =>
    let name := required entries "name" fun v => here (asChoice CallName.all CallName.text v)
    let line := required entries "line_number" fun v => here (asInt v)
    let params := parametersOfEntries entries
    match name, line, params with
    | .ok c, .ok n, .ok ts => .ok ⟨c, n, ts⟩
    | _, _, _ => .error (faults name ++ faults line ++ faults params)
  | _ => .error [⟨[], .notModel statementModel⟩]

end Schema

end Flowchart
