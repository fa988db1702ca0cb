import LedgerGateway.Json.Decoder
import LedgerGateway.Text.Segments

/-!
# Resource paths

A resource is named by its zone, its chain and its own name, written with dots between them. A text
is a path when two dots cut it into three parts, none of them empty.
-/

namespace LedgerGateway

/-- The name of a resource. -/
structure ResourcePath where
  zone : String
  chain : String
  resource : String
  deriving DecidableEq, Repr

namespace ResourcePath

/-- A text that is no path. -/
structure Malformed where
  text : String
  deriving DecidableEq, Repr

/-- The wording of a refused path. -/
def Malformed.message (e : Malformed) : String :=
  "Invalid path '" ++ e.text ++ "': expected zone.chain.resource"

def parse (s : String) : Except Malformed ResourcePath :=
  match Text.segments (· == '.') s.toList with
  | [zone, chain, resource] =>
    if zone.isEmpty || chain.isEmpty || resource.isEmpty then .error ⟨s⟩
    else .ok ⟨String.ofList zone, String.ofList chain, String.ofList resource⟩
  | _ => .error ⟨s⟩

def display (p : ResourcePath) : String := p.zone ++ "." ++ p.chain ++ "." ++ p.resource

def decoder : Json.Decoder ResourcePath := fun node => do
  let s ← Json.asText node
  (parse s).mapError fun e => .refused e.message

def json (p : ResourcePath) : Json := .text p.display

end ResourcePath

end LedgerGateway
