import ByeByeVpn.Lib.Session
import ByeByeVpn.Lib.Bytes

/-!
# Clients of a TLS library

A client has a socket, a context, and a connection that is made from the
context and attached to the socket. It connects once, says one thing and
listens when all of it was taken. The protocol says what each call needs, what
it changes, and that nothing is given back while something else still uses it.
What is said, and where it may be, is up to a policy.
-/

namespace ByeByeVpn.TlsClient

inductive Peer
  | host (name : Bytes)
  | ip (text : Bytes)
  deriving DecidableEq

inductive Call
  | connect
  | setNonblocking (nb : Bool)
  | setTimeouts (timeoutMs : Int)
  | select (read write : Bool) (tvSec tvUsec : Int)
  | send (offered : Bytes) (returned : Int)
  | recv
  | close
  | newContext
  | setVerify (peer : Bool)
  | loadTrust (loaded : Bool)
  | freeContext
  | newConnection
  | attach
  | setSni (name : Bytes)
  | setPeer (peer : Peer)
  | setAlpn (wire : Bytes)
  | handshake (returned : Int)
  | verifyResult (v : Int)
  | write (data : Bytes) (returned : Int)
  | read
  | shutdown
  | freeConnection
  deriving DecidableEq

structure Context where
  verifies : Bool := false
  trusts : Bool := false
  deriving DecidableEq

structure Connection where
  attached : Bool := false
  peer : Option Peer := none
  established : Bool := false
  verified : Bool := false
  deriving DecidableEq

/-- What the client has; of a socket, whether it is blocking. -/
structure Client where
  socket : Option Bool := none
  context : Option Context := none
  connection : Option Connection := none
  /-- What was taken from the client since it connected. -/
  said : Option Bytes := none
  deriving DecidableEq

def opened (said : Bytes) : Client where
  socket := some true
  said := some said

def Client.say (c : Client) (taken : Bytes) : Client := { c with said := c.said.map (· ++ taken) }

/-- What is to be said, and where it may be: in the clear, or over which
connections. -/
structure Policy where
  request : Bytes
  clear : Bool
  secure : Client → Bool

/-- The client offers the rest of what is to be said. -/
def Policy.offers (p : Policy) (c : Client) (offered : Bytes) : Bool :=
  !offered.isEmpty && c.said.map (· ++ offered) == some p.request

def Policy.listens (p : Policy) (c : Client) : Bool := c.said == some p.request

/-- The connection is established with a peer that was checked to be this one. -/
def Client.verified (c : Client) (peer : Peer) : Bool :=
  match c.context, c.connection with
  | some ctx, some k =>
    ctx.verifies && ctx.trusts && k.peer == some peer && k.established && k.verified
  | _, _ => false

def Client.onConnection (c : Client) (ready : Connection → Bool) (f : Connection → Connection) :
    Option Client :=
  match c.connection with
  | some k => if ready k then some { c with connection := some (f k) } else none
  | none => none

def step (p : Policy) (c : Client) : Call → Option Client
  | .connect =>
    if c.socket.isNone && c.said.isNone then some { c with socket := some true, said := some [] }
    else none
  | .setNonblocking nb => if c.socket.isSome then some { c with socket := some !nb } else none
  | .setTimeouts _ => if c.socket.isSome then some c else none
  | .select .. => if c.socket == some false then some c else none
  | .send offered returned =>
    if c.socket == some true && c.connection.isNone && p.clear && p.offers c offered then
      some (c.say (offered.take returned.toNat))
    else none
  | .recv =>
    if c.socket == some true && c.connection.isNone && p.listens c then some c else none
  | .close =>
    if c.socket.isSome && c.connection.isNone then some { c with socket := none } else none
  | .newContext => if c.context.isNone then some { c with context := some {} } else none
  | .setVerify peer =>
    c.context.map fun ctx => { c with context := some { ctx with verifies := peer } }
  | .loadTrust loaded =>
    c.context.map fun ctx => { c with context := some { ctx with trusts := loaded } }
  | .freeContext =>
    if c.context.isSome && c.connection.isNone then some { c with context := none } else none
  | .newConnection =>
    if c.context.isSome && c.connection.isNone then some { c with connection := some {} } else none
  | .attach =>
    if c.socket.isSome then c.onConnection (fun _ => true) fun k => { k with attached := true }
    else none
  | .setSni _ => c.onConnection (fun k => !k.established) id
  | .setPeer peer =>
    c.onConnection (fun k => !k.established) fun k => { k with peer := some peer }
  | .setAlpn _ => c.onConnection (fun k => !k.established) id
  | .handshake returned =>
    c.onConnection (fun k => k.attached && !k.established) fun k =>
      { k with established := returned == 1 }
  | .verifyResult v =>
    c.onConnection Connection.established fun k => { k with verified := v == 0 }
  | .write data returned =>
    if c.socket == some true && p.secure c && p.offers c data then
      (c.onConnection Connection.established id).map (·.say (data.take returned.toNat))
    else none
  | .read =>
    if c.socket == some true && p.listens c then c.onConnection Connection.established id else none
  | .shutdown => c.onConnection Connection.established id
  -- the socket must outlive the connection that is attached to it
  | .freeConnection =>
    if c.socket.isSome && c.connection.isSome then some { c with connection := none } else none

end ByeByeVpn.TlsClient
