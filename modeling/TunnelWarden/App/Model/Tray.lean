import TunnelWarden.Manager.Model.Step

/-!
# The commands of the tray and of the window

Both front ends read the published view of a tunnel and send one command
for a click: the tray for `Toggle`, the window for the button in the
tunnel's row.
-/

namespace TunnelWarden

namespace App

open Manager

/-- `TrayAction::Toggle`, of the snapshot that is published. -/
def toggleCommand (snapshot : ManagerSnapshot) (id : TunnelId) : CoreCommand :=
  let active := (snapshot.lookup id).any fun view =>
    match view.state with
    | .stopped | .blocked _ => false
    | _ => true
  if active then .stopTunnel id else .startTunnel id

/-- The action button of `render_tunnels`: "Start", "Retry" or
"Stop". -/
def actionCommand (snapshot : ManagerSnapshot) (id : TunnelId) : CoreCommand :=
  match ((snapshot.lookup id).map TunnelView.state).getD .stopped with
  | .stopped => .startTunnel id
  | .blocked _ => .retryTunnel id
  | _ => .stopTunnel id

end App

end TunnelWarden
