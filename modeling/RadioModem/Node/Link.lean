import RadioModem.Configuration.Basic
import RadioModem.Reply

/-!
# Link diagnostics

The reports of a node's radio link, each line framed with the node's address.
-/
namespace RadioModem.LinkSettings

def timingReport (l : LinkSettings) (node : Address) : String :=
  frame node ("silence_period: " ++ toString l.silencePeriod) ++
    frame node ("tx_window_width: " ++ toString l.txWindowWidth) ++
    frame node ("max_data_packet_length: " ++ toString l.maxDataPacketLength)

def signalReport (l : LinkSettings) (node : Address) : String :=
  frame node
    ("L/R RSSI: " ++ toString l.localRssi ++ "/" ++ toString l.remoteRssi ++ "  L/R noise: " ++
      toString l.localNoise ++ "/" ++ toString l.remoteNoise ++ " pkts: " ++
      toString l.receivedPackets)

end RadioModem.LinkSettings
