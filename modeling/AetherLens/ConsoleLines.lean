import AetherLens.Changes
import AetherLens.DashboardConnection
import AetherLens.LiveConsole

/-!
What the live console says over a whole session. Every anomaly gets its line, in order. The
lines about the connection tell of its changes only, so they alternate. Of the packets it is
those that come first in their batch, except where two in a row have the same time. The
setters are called by the handlers of all connections that the hook has ever built.
-/
namespace AetherLens.ConsoleLines

open Changes DashboardStore LiveConsole Messages Runs

inductive Topic
  | packets
  | anomalies
  | connection
deriving DecidableEq, Repr

def Topic.tag : Topic → String
  | .packets => "[PACKET]"
  | .anomalies => "[ANOMALY]"
  | .connection => "[SIGNALR]"

/-- The message is about the topic. -/
def Topic.opens (topic : Topic) (message : String) : Bool :=
  topic.tag.toList.isPrefixOf message.toList

def anomaliesOf (es : List Event) : List SuspiciousOutboundConnection :=
  es.filterMap fun
    | .addAnomaly a _ => some a
    | _ => none

section Steps

variable {es : List Event} {s : State} (topic : Topic) (stamp : Stamp)

end Steps

section Hook

open DashboardConnection (Callback)

/-- The setter that a handler calls. -/
def setter (stamp : Stamp) : Callback → Option Event
  | .receivePackets packets => some (.addPackets packets stamp)
  | .receiveProcessStats process => some (.upsertProcess process)
  | .receiveHealth health => some (.setHealth health)
  | .receiveAnomaly anomaly => some (.addAnomaly anomaly stamp)
  | .startCompletes => some (.setConnected true stamp)
  | .startFails => none
  | .onreconnecting => some (.setConnected false stamp)
  | .onreconnected => some (.setConnected true stamp)
  | .onclose => some (.setConnected false stamp)

def writes (callbacks : List Callback) : AetherState :=
  callbacks.foldl (fun store callback => callback.write store) .empty

end Hook

end AetherLens.ConsoleLines
