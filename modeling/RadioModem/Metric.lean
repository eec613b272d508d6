import RadioModem.Address
import RadioModem.Command

/-!
# Metrics

Every metric is declared once, with its unit and the labels it may carry. What the modem counts
while it works is a `Counter`; its key is the metric's name followed by its labels.
-/
namespace RadioModem

inductive MetricKind
  | counter
  | gauge
  deriving DecidableEq, Repr

def MetricKind.name : MetricKind → String
  | counter => "counter"
  | gauge => "gauge"

inductive MetricUnit
  | count
  | bytes
  | percent
  | seconds
  deriving DecidableEq, Repr

def MetricUnit.all : List MetricUnit := [count, bytes, percent, seconds]

def MetricUnit.name : MetricUnit → String
  | count => "count"
  | bytes => "bytes"
  | percent => "percent"
  | seconds => "seconds"

structure Metric where
  name : String
  kind : MetricKind
  description : String
  unit : Option MetricUnit
  labels : List String
  deriving DecidableEq, Repr

/-- What a recorder is told about a metric. -/
structure Description where
  kind : MetricKind
  name : String
  unit : Option MetricUnit
  text : String
  deriving DecidableEq, Repr

namespace Metric

def counter (name : String) : Metric := ⟨name, .counter, "", none, []⟩

def gauge (name : String) : Metric := ⟨name, .gauge, "", none, []⟩

def withDescription (m : Metric) (text : String) : Metric := { m with description := text }

def withUnit (m : Metric) (u : MetricUnit) : Metric := { m with unit := some u }

def withLabels (m : Metric) (labels : List String) : Metric := { m with labels := labels }

def describe (m : Metric) : Description := ⟨m.kind, m.name, m.unit, m.description⟩

def escapes : Metric :=
  ((counter "rfmodem.at.escapes").withDescription "Escape sequences detected").withUnit .count

def commands : Metric :=
  (((counter "rfmodem.at.commands").withDescription "Command lines dispatched").withUnit
    .count).withLabels ["family"]

def errors : Metric :=
  ((counter "rfmodem.at.errors").withDescription "ERROR replies sent").withUnit .count

def overflows : Metric :=
  ((counter "rfmodem.at.overflows").withDescription "Command buffer overflow aborts").withUnit
    .count

def relayed : Metric :=
  (((counter "rfmodem.at.relayed").withDescription "Remote commands forwarded").withUnit
    .count).withLabels ["target"]

def passthroughBytes : Metric :=
  ((counter "rfmodem.serial.passthrough_bytes").withDescription
    "Bytes routed to the data path").withUnit .bytes

def clientConnected : Metric :=
  (gauge "rfmodem.serial.client_connected").withDescription
    "1 while a serial client is connected"

def all : List Metric :=
  [escapes, commands, errors, overflows, relayed, passthroughBytes, clientConnected]

end Metric

inductive Reach
  | broadcast
  | node
  deriving DecidableEq, Repr

def Reach.name : Reach → String
  | broadcast => "broadcast"
  | node => "node"

def Destination.reach : Destination → Reach
  | .broadcast => .broadcast
  | .node _ => .node

inductive Counter
  | escapes
  | commands (family : Family)
  | errors
  | overflows
  | relayed (target : Reach)
  | passthroughBytes
  deriving DecidableEq, Repr

namespace Counter

def metric : Counter → Metric
  | escapes => Metric.escapes
  | commands _ => Metric.commands
  | errors => Metric.errors
  | overflows => Metric.overflows
  | relayed _ => Metric.relayed
  | passthroughBytes => Metric.passthroughBytes

def labelValues : Counter → List String
  | commands family => [family.name]
  | relayed target => [target.name]
  | _ => []

def key (c : Counter) : String :=
  c.metric.name ++
    String.join ((c.metric.labels.zip c.labelValues).map fun (l, v) => " " ++ l ++ "=" ++ v)

end Counter

end RadioModem
