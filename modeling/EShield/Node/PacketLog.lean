import EShield.Common.Types
import EShield.Lib.BoundedLog
import EShield.Lib.Exec
import EShield.Node.Ip

/-!
# The log of sampled packets

`packet_log.rs`: the samples that the data plane puts into its ring buffer, kept in memory up to a
number of entries, and the queries of the operators.
-/

namespace EShield.Node

open BoundedLog Exec Text

/-- A sample as it is shown. -/
structure PacketSampleEntry where
  timestampNs : UInt64
  srcIp : String
  dstIp : String
  srcPort : UInt16
  dstPort : UInt16
  protocol : UInt8
  action : UInt8
  ruleId : UInt16
  packetLen : UInt16
  payloadBytes : UInt8
  payloadHex : String
  deriving DecidableEq, Repr

/-- The key of a sampled address. An IPv4 address stands in the last four bytes. -/
def sampleKey (addr : BitVec 128) (family : UInt8) : Option IpKey :=
  match IpFamily.fromU8 family with
  | some .ipv4 => some (.fromIpv4 (addr.setWidth 32))
  | some .ipv6 => some (.fromIpv6 addr)
  | none => none

def HEX : List Char := "0123456789abcdef".toList

def bytesToHex (bytes : List UInt8) : String :=
  String.ofList (bytes.flatMap fun b =>
    [HEX.getD (b.toNat / 16) '0', HEX.getD (b.toNat % 16) '0'])

/-- The default key has family 0. -/
def sampleEntry (sample : PacketSample) : PacketSampleEntry :=
  { timestampNs := sample.timestampNs
    srcIp := formatIpKey ((sampleKey sample.srcIp sample.family).getD ⟨0, 0⟩)
    dstIp := formatIpKey ((sampleKey sample.dstIp sample.family).getD ⟨0, 0⟩)
    srcPort := sample.srcPort
    dstPort := sample.dstPort
    protocol := sample.protocol
    action := sample.action
    ruleId := sample.ruleId
    packetLen := sample.packetLen
    payloadBytes := sample.payloadBytes
    payloadHex := bytesToHex (sample.payloadSample.take sample.payloadBytes.toNat) }

structure PacketLogQuery where
  ip : Option String := none
  port : Option UInt16 := none
  protocol : Option UInt8 := none
  action : Option UInt8 := none
  rule : Option UInt16 := none
  fromNs : Option UInt64 := none
  toNs : Option UInt64 := none
  limit : Nat := 100

def formatIpForFilter (addr : BitVec 128) (family : UInt8) : String :=
  match sampleKey addr family with
  | some key => formatIpKey key
  | none => ""

/-- The filter of a query. An address need only contain the text that is asked for. -/
def PacketLogQuery.passes (opts : PacketLogQuery) (s : PacketSample) : Bool :=
  let ipFilter := opts.ip.map lowercase
  let src := lowercase (formatIpForFilter s.srcIp s.family)
  let dst := lowercase (formatIpForFilter s.dstIp s.family)
  if ipFilter.any fun ip => ¬ ip <:+: src ∧ ¬ ip <:+: dst then false
  else if opts.port.any fun port => s.srcPort ≠ port ∧ s.dstPort ≠ port then false
  else if opts.protocol.any fun protocol => s.protocol ≠ protocol then false
  else if opts.action.any fun action => s.action ≠ action then false
  else if opts.rule.any fun rule => s.ruleId ≠ rule then false
  else if opts.fromNs.any fun fromNs => s.timestampNs < fromNs then false
  else if opts.toNs.any fun toNs => s.timestampNs > toNs then false
  else true

/-- The log, the newest sample last. -/
structure PacketLog where
  maxEntries : Nat
  entries : List PacketSample := []

namespace PacketLog

def pushMany (log : PacketLog) (samples : List PacketSample) : PacketLog :=
  { log with entries := BoundedLog.pushMany log.maxEntries log.entries samples }

/-- The samples a query finds, the newest first. -/
def hits (log : PacketLog) (opts : PacketLogQuery) : List PacketSample :=
  (log.entries.reverse.filter opts.passes).take opts.limit

def query (log : PacketLog) (opts : PacketLogQuery) : List PacketSampleEntry :=
  (log.hits opts).map sampleEntry

end PacketLog

/-! ## Runs -/

/-- The ring buffer and the log. Beside them it is recorded what the data plane has put into the buffer
and which samples the consumer has taken out. -/
structure PacketRun where
  log : PacketLog
  ringBuf : List (Option PacketSample) := []
  arrived : List (Option PacketSample) := []
  taken : List PacketSample := []

inductive PacketLabel where
  /-- The data plane puts an item into the ring buffer; `none` is one too short for a sample. -/
  | emit (item : Option PacketSample)
  /-- One call of `run`. -/
  | consume

def packetBatch : Nat := 1024

def consumeSamples (w : PacketRun) : PacketRun :=
  let (samples, ringBuf) := drain packetBatch 0 w.ringBuf
  { w with
    log := w.log.pushMany samples
    ringBuf := ringBuf
    taken := w.taken ++ samples }

def packetStep (w : PacketRun) : PacketLabel → Option PacketRun
  | .emit item =>
    some { w with ringBuf := w.ringBuf ++ [item], arrived := w.arrived ++ [item] }
  | .consume => some (consumeSamples w)

def PacketRun.start (maxEntries : Nat) : PacketRun := { log := { maxEntries := maxEntries } }

end EShield.Node
