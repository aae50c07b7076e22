import PhpScaffold.Json.Read
import PhpScaffold.Json.Write
import PhpScaffold.Text.Blank

namespace PhpScaffold.Service

structure Request where
  method : String
  path : String
  body : List UInt8 := []

inductive Content
  | json (v : Value)
  | text (s : String)

structure Response where
  status : Nat
  content : Content

def Response.detail (status : Nat) (v : Value) : Response := ⟨status, .json (.dict [(.text "detail", v)])⟩

inductive Route
  | page
  | health
  | tools
  | tool (name : String)
  deriving DecidableEq

namespace Route

def methods : Route → List String
  | page => ["GET", "HEAD"]
  | health | tools => ["GET"]
  | tool _ => ["POST"]

def pages : List String := ["/openapi.json", "/docs", "/docs/oauth2-redirect", "/redoc"]

def toolLead : String := "/tools/"

def ofPath? (path : String) : Option Route :=
  let leads (fixed : String) : Bool := path = fixed || path = fixed ++ "\n"
  if pages.any leads then some page
  else if leads "/health" then some health
  else if leads "/tools" then some tools
  else if Text.startsWith path toolLead then
    let name := path.toList.drop toolLead.length
    if name.isEmpty || name.contains '/' then none else some (tool (.ofList name))
  else none

def isRedirected (path : String) : Bool :=
  path.toList.getLast? = some '/' && (ofPath? (Text.trimEnd (· = '/') path)).isSome

end Route

mutual

def isFinite : Value → Bool
  | .float x => x.isFinite
  | .list vs => allFinite vs
  | .dict es => entriesFinite es
  | _ => true

def allFinite : List Value → Bool
  | [] => true
  | v :: r => isFinite v && allFinite r

def entriesFinite : List (Value × Value) → Bool
  | [] => true
  | (_, v) :: r => isFinite v && entriesFinite r

end

/-- The response as it is sent.  One that cannot be written down gives way to one that says why. -/
def Response.sent (r : Response) : Response :=
  match r.content with
  | .text _ => r
  | .json v =>
    if !isFinite v then .detail 400 (.text "Out of range float values are not JSON compliant")
    else match storable (Json.write v) with
      | .ok () => r
      | .error f => .detail 400 (.text f.message)

inductive BodyFault
  | notJson (place : Nat)
  | unreadable
  | missing
  | notObject (given : Value)
  | parametersNotObject (given : Value)

namespace BodyFault

def kind : BodyFault → String
  | notJson _ | unreadable => "json_invalid"
  | missing => "missing"
  | notObject _ => "model_attributes_type"
  | parametersNotObject _ => "dict_type"

def message : BodyFault → String
  | notJson _ => "JSON decode error"
  | unreadable => "There was an error parsing the body"
  | missing => "Field required"
  | notObject _ => "Input should be a valid dictionary or object to extract fields from"
  | parametersNotObject _ => "Input should be a valid dictionary"

def location : BodyFault → List Value
  | notJson place => [.text "body", .int place]
  | missing | notObject _ | unreadable => [.text "body"]
  | parametersNotObject _ => [.text "body", .text "parameters"]

def given? : BodyFault → Option Value
  | notObject v | parametersNotObject v => some v
  | _ => none

def response : BodyFault → Response
  | unreadable => .detail 400 (.text unreadable.message)
  | f => .detail 422 (.list [.dict <| [
      (.text "type", .text f.kind), (.text "loc", .list f.location), (.text "msg", .text f.message)] ++
      (f.given?.map fun v => (.text "input", v)).toList])

def isEarly : BodyFault → Bool
  | notJson _ | unreadable => true
  | _ => false

end BodyFault

def parameters (body : List UInt8) : Except BodyFault (List (Value × Value)) :=
  if body.isEmpty then throw .missing
  else match Json.Encoding.decode? body with
    | none => throw .unreadable
    | some text => match Json.read text with
      | .error (.place n) => throw (.notJson n)
      | .error (.other _) => throw .unreadable
      | .ok (.dict es) => match Value.lookupText "parameters" es with
        | none => return []
        | some (.dict ps) => return ps
        | some v => throw (.parametersNotObject v)
      | .ok v => throw (.notObject v)

end PhpScaffold.Service
