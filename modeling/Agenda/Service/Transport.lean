import Agenda.Address.Basic
import Agenda.Text.Bytes
import Agenda.Value.Read

/-! # Requests over the network

A request goes to an address and carries JSON. Credentials in the address take the place of any
other authorization. A transport takes a request to its address and brings the reply; it is a
parameter everywhere, so nothing here sends anything. Only a reply whose status reports success is
read.
-/

namespace Agenda

structure Request where
  address : Address
  /-- The content of the authorization header, if there is one. -/
  authorization : Option String := none
  body : Value

structure Reply where
  status : Int
  body : List Char

abbrev Transport := Request → Except Fault Reply

namespace Request

/-- The authorization by name and password. -/
def basic (name password : List Char) : String :=
  "Basic " ++ String.ofList (Text.base64 (Text.bytes (name ++ ':' :: password)))

/-- The request to a written address. It is in ASCII apart from its body. -/
def make (address : String) (authorization : Option String) (body : Value) : Except Fault Request :=
  match Address.ofText? address.toList with
  | none => .error .noAddress
  | some written =>
    let address := written.rooted
    if !(address.text ++ (authorization.getD "").toList).all Address.ascii then .error .notAscii
    else .ok
      { address, body
        authorization := match address.login? with
          | some (name, password) => some (basic name password)
          | none => authorization }

/-- The reply to a request. One from an address without a scheme is not taken. -/
def send (r : Request) (transport : Transport) : Except Fault Reply := do
  let reply ← transport r
  if r.address.scheme.isEmpty then .error .noScheme else return reply

end Request

namespace Reply

def succeeds (status : Int) : Bool :=
  200 ≤ status && status ≤ 299

/-- The JSON body of a reply. -/
def read (r : Reply) : Except Fault Value :=
  if succeeds r.status then
    match Text.ofBody? r.body with
    | some cs => (Value.ofJson cs).mapError ReadFault.fault
    | none => .error .noText
  else .error .badStatus

end Reply

end Agenda
