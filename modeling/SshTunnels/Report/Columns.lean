import SshTunnels.Report.Fields
import SshTunnels.Store.Database

/-!
# Columns from records
-/

namespace SshTunnels

open Fields

/-- The columns that a record gives. -/
def TunnelColumns.ofRecord (j : Json) : TunnelColumns :=
  { id := (str? j "id").bind Uuid.ofString?, kind := str? j "kind", enabled := num? j "enabled"
    createdAt := str? j "created_at", tunnelPort := num? j "tunnel_port"
    sshUser := str? j "ssh_user", sshHost := str? j "ssh_host", sshPort := num? j "ssh_port"
    serviceHost := str? j "service_host", servicePort := num? j "service_port" }

end SshTunnels
