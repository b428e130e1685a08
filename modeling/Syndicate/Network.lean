import Syndicate.Failure

/-! The other side of the wire, by a script: each request that is to be sent takes the next reply,
and all requests are kept. The library that sends them may write lines of its own to the log. -/

namespace Syndicate

inductive Reply where
  | response (status : Int) (body : String)
  /-- The connection failed, with a reason. -/
  | unreachable (reason : String)
  /-- Sending failed in another way, on a payload or a time limit that cannot be sent or on
  anything else. -/
  | broken (fault : Fault)

inductive Payload where
  | json (fields : Entries)
  /-- A form with one file, under a field and with a name. -/
  | form (fields : Entries) (field fileName content : String)

structure Request where
  url : String
  timeout : Value
  payload : Payload

structure Network where
  replies : List Reply := []
  sent : List Request := []
  /-- The lines that the library writes of a request and its reply. They may name the address. -/
  lines : Request → Reply → List String := fun _ _ => []

/-- Sends a request. With the script used up the connection fails. -/
def Network.post (n : Network) (r : Request) : Reply × Network :=
  match n.replies with
  | [] => (.unreachable "no scripted response", { n with sent := n.sent ++ [r] })
  | reply :: rest => (reply, { n with replies := rest, sent := n.sent ++ [r] })

end Syndicate
