/-
  StealthNet.Ip
  ─────────────
  THE DESTINATION OF AN IP PACKET (`ip.rs`).
-/
import StealthNet.Net.Addr

namespace StealthNet

/-- Every access is in bounds: the indices carry their own proofs. -/
def packetDestination (packet : Bytes) : Option IpAddr :=
  match packet.head? with
  | none => none
  | some first =>
      let version := first >>> 4
      if version = 4 then
        if h : packet.length < 20 then none
        else some (.v4 (ofOctets 32 [packet[16], packet[17], packet[18], packet[19]]))
      else if version = 6 then
        if packet.length < 40 then none
        else some (.v6 (ofOctets 128 (packet.extract 24 40)))
      else none

end StealthNet
