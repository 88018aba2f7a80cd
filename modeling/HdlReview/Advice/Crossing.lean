import HdlReview.Validation.Reader

/-!
# Advice on clock-domain crossings

Advice on bringing a signal from one clock domain to another depends on the type of the signal
only: a single bit needs two flip-flops, a bus Gray code or a toggled request, a handshake four
phases. A signal of no given type is treated as a single bit.

## Main definitions

* `SignalType`: the types of crossing signals
* `Recommendation`, `CrossingGuidance`
* `recommendations signalType`: the techniques for a type
* `crossingGuidance description signalType`: the advice
* `read`, `toValue` of both records
-/

namespace HdlReview.Advice

open HdlReview.Json HdlReview.Validation

/-- The type of a signal that crosses clock domains. -/
inductive SignalType where
  | singleBit
  | multiBit
  | bus
  | handshake
deriving DecidableEq, Repr

/-- The name of a signal type. -/
def SignalType.name : SignalType → String
  | singleBit => "single-bit"
  | multiBit => "multi-bit"
  | bus => "bus"
  | handshake => "handshake"

/-- The signal types by name. -/
def SignalType.members : List (String × SignalType) :=
  [singleBit, multiBit, bus, handshake].map fun t => (t.name, t)

/-- A technique for one situation, with a sample of code. -/
structure Recommendation where
  scenario : String
  solution : String
  sample : Option String
deriving DecidableEq, Repr

/-- Advice on a crossing. -/
structure CrossingGuidance where
  description : String
  signalType : Option SignalType
  recommendations : List Recommendation
  generalGuidelines : List String
  toolRecommendations : List String
deriving DecidableEq, Repr

/-! ## Texts -/

/-- What holds for every crossing. -/
def generalGuidelines : List String :=
  ["Never cross multi-bit buses without proper synchronization",
    "Use gray code for counters and pointers",
    "Always use at least two flops for synchronization",
    "Consider metastability recovery time (MTBF)",
    "Use async FIFOs for high-bandwidth data transfers",
    "Verify CDC paths with formal tools (Jasper, VC Formal)"]

/-- Tools that check crossings. -/
def toolRecommendations : List String :=
  ["Synopsys SpyGlass CDC verification", "Cadence JasperGold CDC", "Real Intent Meridian CDC"]

/-- A sample of code from its lines. -/
def sampleText (lines : List String) : Option String :=
  some ("\n".intercalate lines)

/-- Two flip-flops in a row for a single bit. -/
def twoFlopSynchronizer : Recommendation where
  scenario := "Single-bit CDC crossing"
  solution := "Use a two-flop synchronizer"
  sample := sampleText [
    "", "// Two-flop synchronizer for single-bit signal", "reg sync_ff1, sync_ff2;", "",
    "always @(posedge clk_dest or negedge rst_n) begin", "  if (!rst_n) begin",
    "    sync_ff1 <= 1'b0;", "    sync_ff2 <= 1'b0;", "  end else begin",
    "    sync_ff1 <= signal_from_source_domain;", "    sync_ff2 <= sync_ff1;", "  end", "end", "",
    "assign synced_signal = sync_ff2;"]

/-- Gray code for a bus. -/
def grayCodeBus : Recommendation where
  scenario := "Multi-bit bus crossing"
  solution := "Use Gray code encoding or handshake protocol"
  sample := sampleText [
    "", "// Gray code counter for CDC", "function [N-1:0] bin2gray;", "  input [N-1:0] bin;",
    "  begin", "    bin2gray = bin ^ (bin >> 1);", "  end", "endfunction", "",
    "// In source domain", "gray_counter <= bin2gray(binary_counter);", "",
    "// In destination domain (synchronize each bit)", "always @(posedge clk_dest) begin",
    "  gray_sync1 <= gray_counter;", "  gray_sync2 <= gray_sync1;", "end"]

/-- A toggled request for a bus with an enable signal. -/
def toggleHandshakeBus : Recommendation where
  scenario := "Data bus with enable signal"
  solution := "Use toggle-based or handshake protocol"
  sample := sampleText [
    "", "// Handshake protocol for data bus", "// Source domain",
    "always @(posedge clk_src) begin", "  if (data_valid && !req) begin",
    "    req <= ~req;  // Toggle request", "    data_reg <= data;", "  end", "end", "",
    "// Destination domain", "always @(posedge clk_dest) begin", "  req_sync1 <= req;",
    "  req_sync2 <= req_sync1;", "  req_sync3 <= req_sync2;", "",
    "  if (req_sync2 != req_sync3) begin", "    // New data available",
    "    data_out <= data_reg;", "  end", "end"]

/-- Request and acknowledgement in four phases. -/
def fourPhaseHandshake : Recommendation where
  scenario := "Handshake-based data transfer"
  solution := "Four-phase handshake with proper synchronization"
  sample := sampleText [
    "", "// Four-phase handshake CDC", "// Source domain", "always @(posedge clk_src) begin",
    "  if (send_data && !req && ack_synced) begin", "    data_reg <= data_in;",
    "    req <= 1'b1;", "  end else if (req && ack_synced) begin", "    req <= 1'b0;", "  end",
    "end", "", "// Sync ack back to source", "always @(posedge clk_src) begin",
    "  ack_sync1 <= ack;", "  ack_synced <= ack_sync1;", "end", "", "// Destination domain",
    "always @(posedge clk_dest) begin", "  req_sync1 <= req;", "  req_sync2 <= req_sync1;", "",
    "  if (req_sync2 && !ack) begin", "    data_out <= data_reg;", "    ack <= 1'b1;",
    "  end else if (!req_sync2 && ack) begin", "    ack <= 1'b0;", "  end", "end"]

/-! ## Advice -/

/-- The techniques for a signal type, a single bit if none is given. -/
def recommendations : Option SignalType → List Recommendation
  | none => [twoFlopSynchronizer]
  | some .singleBit => [twoFlopSynchronizer]
  | some .multiBit => [grayCodeBus, toggleHandshakeBus]
  | some .bus => [grayCodeBus, toggleHandshakeBus]
  | some .handshake => [fourPhaseHandshake]

/-- **Advice on a crossing**. -/
def crossingGuidance (description : String) (signalType : Option SignalType) : CrossingGuidance :=
  ⟨description, signalType, recommendations signalType, generalGuidelines, toolRecommendations⟩

/-! ## Data values -/

/-- A recommendation as a data value. -/
def Recommendation.toValue (r : Recommendation) : Value :=
  .obj [("scenario", .str r.scenario), ("solution", .str r.solution),
    ("example", .ofOption .str r.sample)]

/-- The fields of a recommendation. -/
def Recommendation.readFields (fields : Fields) : Checked Recommendation :=
  ((Checked.ap (.ok Recommendation.mk) (required "scenario" text fields)).ap
    (required "solution" text fields)).ap
    (optional "example" (nullable text) none fields)

/-- A recommendation from a data value. -/
def Recommendation.read : Reader Recommendation :=
  record "CDCRecommendation" Recommendation.readFields

/-- Advice on a crossing as a data value. -/
def CrossingGuidance.toValue (g : CrossingGuidance) : Value :=
  .obj [("description", .str g.description),
    ("signalType", .ofOption (fun t => .str t.name) g.signalType),
    ("recommendations", .list (g.recommendations.map Recommendation.toValue)),
    ("generalGuidelines", .texts g.generalGuidelines),
    ("toolRecommendations", .texts g.toolRecommendations)]

/-- The fields of advice on a crossing. -/
def CrossingGuidance.readFields (fields : Fields) : Checked CrossingGuidance :=
  ((((Checked.ap (.ok CrossingGuidance.mk) (required "description" text fields)).ap
    (optional "signalType" (nullable (listed SignalType.members)) none fields)).ap
    (optional "recommendations" (listOf Recommendation.read) [] fields)).ap
    (optional "generalGuidelines" (listOf text) [] fields)).ap
    (optional "toolRecommendations" (listOf text) [] fields)

/-- Advice on a crossing from a data value. -/
def CrossingGuidance.read : Reader CrossingGuidance :=
  record "CDCGuidance" CrossingGuidance.readFields

end HdlReview.Advice
