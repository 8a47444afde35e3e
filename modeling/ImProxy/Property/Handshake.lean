import ImProxy.Gateway.Scenario
import ImProxy.Invariant.History

/-! # The first packet of a connection

The descriptor of a channel is in the registry before its CONNACK is written, and
other event loops find it there. What they write is posted behind the handler of
the CONNECT, so it follows the CONNACK.
-/

set_option autoImplicit false

namespace ImProxy

open Transition

variable {g : Gateway} {s : State} {x : ChannelId} {msg : MqttConnectMessage} {w : Write}

/-- On a channel whose first message is a CONNECT the first packet written is a CONNACK, which
its own event loop writes. -/
theorem connAck_first (hr : (gateway g).Reachable s)
    (hm : (s.channel x).received.head? = some (.connect msg))
    (hw : (s.channel x).sent.head? = some w) :
    w.packet.isConnAck = true ∧ w.source = .loop x := by
  have h := reachable_history hr x
  have hc := h.first msg hm w hw
  exact ⟨hc, (h.connAck w (List.mem_of_head? hw) hc).1⟩

/-- Channel 1 takes the client id of channel 0 over between the registration of channel 0 and
its CONNACK. -/
def earlyTakeOver : List Action :=
  .read 0 (.connect (connectAs "a")) :: proceed 0 2 ++ takeOver 1 "a" ++ proceed 0 12 ++
    [.task 0 (.loop 1)]

theorem connAck_first_earlyTakeOver : ∃ w,
    ((after earlyTakeOver).channel 0).sent.head? = some w ∧ w.packet.isConnAck = true ∧
      w.source = .loop 0 := by
  refine ⟨⟨connAck .connectionAccepted false, .loop 0, 0⟩, by decide, ?_⟩
  have hm : ((after earlyTakeOver).channel 0).received.head? =
      some (.connect (connectAs "a")) := by decide
  exact connAck_first (reachable_after (by decide)) hm (by decide)

end ImProxy
