import HiveSdk.Interaction.Attach
import HiveSdk.Model.OAuthToken
import HiveSdk.Model.Server

/-!
# The server with the handler of the login

The wait for the redirect as it runs: the server is polled until the handler has seen a connection close. The handler sets `hive_error` and writes to the flag and the buffer it has been given.
-/

namespace HiveSdk

open Interaction

namespace Sb

def Notice.event : Notice → SbEvent
  | .connect => .connect
  | .close => .close
  | .request _ path stream => .request path stream

end Sb

/-- What the handler works on. -/
abbrev Login := AuthRedirect × Process OneDriveConnect

/-- A response is begun only for a request to the path that has a code. -/
def redirectOutputs (path : Bytes) (a : AuthRedirect) : SbEvent → List Sb.Output
  | .request reqPath stream =>
      if reqPath = path ∧ (Sb.getVar stream (bytes "code") a.code).2 = .success then [.sendStatus 200 (bytes "OK")]
      else []
  | _ => []

/-- The handler makes no calls. -/
def redirectHandler (path : Bytes) : Component Sb.Call Sb.Call.Answer Login
  | .handle _ notice, login =>
      match handleAuthRedirect path login.1 notice.event login.2 with
      | .ret login' => some (⟨redirectOutputs path login.1 notice.event, Sb.SB_RES_OK⟩, login')
      | .ask _ _ => none
  | _, _ => none

/-- The first rounds of `while (!stopped) sb_poll_server(..)`. -/
def awaitRedirect (path : Bytes) : (rounds : Nat) → Login → Sb.Server → Prog Sb.Call Sb.Call.Answer (Login × Sb.Server)
  | 0, login, srv => pure (login, srv)
  | rounds + 1, login, srv =>
      if login.1.stop then pure (login, srv)
      else do
        let ((_, srv), login) ← (Sb.pollServer srv).attach (redirectHandler path) login
        awaitRedirect path rounds login srv

end HiveSdk
