import Keyline.Address
import Keyline.CommandLine.Server
import Keyline.Database
import Keyline.Retry
import Keyline.Text.Quoted

/-!
# Starting a server

A server reads its options, opens its database and binds its address, in this order. The first of
these to fail is reported and ends it.
-/
namespace Keyline.Server

def bind (c : Config) (isFree : Address → Bool) : Except Failure Address :=
  (Retry.run c.listenAddress c.connectAttempts fun _ =>
    (Address.ofText? c.listenAddress).filter isFree).result

structure Listening where
  config : Config
  database : Database
  address : Address

/-- Starts a server; a failure is given as the text that reports it. -/
def start (o : ServerOptions) (isFree : Address → Bool) (now : Nat) (t : FileTree) :
    Except String Listening × FileTree :=
  match o.config t with
  | .error e => (.error (Text.logged e.message), t)
  | .ok c =>
    match Database.start c now t with
    | (.error e, t) => (.error (Text.logged ("Failed to open engine: " ++ e.message)), t)
    | (.ok db, t) =>
      match bind c isFree with
      | .error e => (.error (Text.logged e.message), t)
      | .ok address => (.ok ⟨c, db, address⟩, t)

end Keyline.Server
