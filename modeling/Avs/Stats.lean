import Mathlib.Data.List.Induction
import Avs.LibreFormats

/-!
The packet statistics of `src/stats/stats.c` over the reports of a call. Libre and the arithmetic of `double` and
`float` are a parameter. Jitter, round trip times, the connection and the audio level are left out.
-/
namespace Avs.Stats
open Avs.Jzon (jzonStr jzonInt jzonDecode objectGetEx)

structure Env (Double : Type) where
  libre : Libre
  zero : Double
  ofBits : BitVec 64 → Double
  ofInt : BitVec 64 → Double
  max : Double → Double → Double
  aboveRefTsUs : Double → Bool
  thousandth : Double → Double
  toUInt64 : Double → BitVec 64
  equal : BitVec 64 → Double → Bool
  percentage : (lost packets : BitVec 32) → BitVec 32
  zero_toUInt64 : aboveRefTsUs zero = false ∧ toUInt64 zero = 0

inductive Kind
  | unknown | audio | video
  deriving DecidableEq

/-- An item of a report: what is not read stays zero. -/
structure Rtp (Double : Type) where
  kind : Kind
  packets : BitVec 32
  lost : BitVec 32
  timestamp : Double

structure StatsObj (Double : Type) where
  inboundRtp : List (Rtp Double) := []
  outboundRtp : List (Rtp Double) := []
  remoteInboundRtp : List (Rtp Double) := []

/-- The members of `struct stats_packet_counts`. -/
inductive Counter
  | audioTx | audioRx | videoTx | videoRx | lostTx | lostRx

abbrev PacketCounts := Counter → BitVec 32

structure Report where
  packets : PacketCounts
  packetsPerSec : PacketCounts

structure AvsStats where
  report : Report
  lastPackets : PacketCounts
  lastTimestampInMs : BitVec 64

def statsAlloc : AvsStats := ⟨⟨fun _ => 0, fun _ => 0⟩, fun _ => 0, 0⟩

section
variable {Double : Type} (env : Env Double)

def jzonDouble (item : Json) (key : String) : Double :=
  match objectGetEx item key with
  | some (.double bits) => env.ofBits bits
  | some (.int i) => env.ofInt i
  | _ => env.zero

def parseKind (item : Json) : Kind :=
  if jzonStr item "kind" = some (ascii "audio") then .audio
  else if jzonStr item "kind" = some (ascii "video") then .video
  else .unknown

def count (item : Json) (key : String) : BitVec 32 := (jzonInt item key).toOption.getD 0

def parseInboundRtp (item : Json) : Rtp Double :=
  ⟨parseKind item, count item "packetsReceived", count item "packetsLost", jzonDouble env item "timestamp"⟩

def parseOutboundRtp (item : Json) : Rtp Double :=
  ⟨parseKind item, count item "packetsSent", 0, jzonDouble env item "timestamp"⟩

def parseRemoteInboundRtp (item : Json) : Rtp Double :=
  ⟨parseKind item, 0, count item "packetsLost", jzonDouble env item "timestamp"⟩

def parseJson (report : Bytes) : StatsObj Double × Option Errno :=
  match jzonDecode env.libre report with
  | .error _ => ({}, some .EPROTO)
  | .ok (.array items) =>
    let typed type := items.filter (fun item => jzonStr item "type" = some (ascii type))
    (⟨(typed "inbound-rtp").map (parseInboundRtp env), (typed "outbound-rtp").map (parseOutboundRtp env),
      (typed "remote-inbound-rtp").map (parseRemoteInboundRtp env)⟩, none)
  | .ok _ => ({}, some .EINVAL)

def total (rtps : List (Rtp Double)) (kind : Kind) : BitVec 32 :=
  (rtps.filter (·.kind = kind)).foldl (fun total rtp => total + rtp.packets) 0

def lost (rtps : List (Rtp Double)) : BitVec 32 := rtps.foldl (fun lost rtp => lost + rtp.lost) 0

def StatsObj.packets (obj : StatsObj Double) : PacketCounts
  | .audioTx => total obj.outboundRtp .audio
  | .audioRx => total obj.inboundRtp .audio
  | .videoTx => total obj.outboundRtp .video
  | .videoRx => total obj.inboundRtp .video
  | .lostTx => lost obj.remoteInboundRtp
  | .lostRx => lost obj.inboundRtp

def StatsObj.timestamp (obj : StatsObj Double) : Double :=
  ((obj.inboundRtp ++ obj.outboundRtp ++ obj.remoteInboundRtp).filter (·.kind ≠ .unknown)).foldl
    (fun timestamp rtp => env.max timestamp rtp.timestamp) env.zero

def normalizeTimestampToMs (timestamp : Double) : BitVec 64 :=
  env.toUInt64 (if env.aboveRefTsUs timestamp then env.thousandth timestamp else timestamp)

def calculateLossPercentage (packets lost : BitVec 32) : BitVec 32 :=
  if packets ≠ 0 then env.percentage lost packets else 0

/-- Steps 2 and 4 of `read_packet_stats_and_jitter`: what is reported relative to the last counts and time. -/
def interval (last : PacketCounts × BitVec 64) (packets : PacketCounts) (timestamp : Double) : Report :=
  let diff counter := packets counter - last.1 counter
  let timeDifference := normalizeTimestampToMs env timestamp - last.2
  { packets := fun
      | .lostTx => calculateLossPercentage env (diff .audioTx + diff .videoTx) (diff .lostTx)
      | .lostRx => calculateLossPercentage env (diff .audioRx + diff .videoRx) (diff .lostRx)
      | counter => packets counter
    packetsPerSec := fun counter =>
      if env.equal timeDifference timestamp = false ∧ timeDifference ≠ 0 then
        ((1000 * diff counter).setWidth 64 / timeDifference).setWidth 32
      else 0 }

/-- `stats_update`; the report may be null. -/
def statsUpdate : Option Bytes → AvsStats → AvsStats × Option Errno
  | none, stats => (stats, some .EINVAL)
  | some report, stats =>
    let (obj, err) := parseJson env report
    let timestamp := obj.timestamp env
    (⟨interval env (stats.lastPackets, stats.lastTimestampInMs) obj.packets timestamp, obj.packets,
      normalizeTimestampToMs env timestamp⟩, err)

def after (reports : List (Option Bytes)) : AvsStats :=
  reports.foldl (fun stats report => (statsUpdate env report stats).1) statsAlloc

def stored (stats : AvsStats) : PacketCounts × BitVec 64 := (stats.lastPackets, stats.lastTimestampInMs)

def reading (report : Bytes) : PacketCounts × BitVec 64 :=
  let obj := (parseJson env report).1
  (obj.packets, normalizeTimestampToMs env (obj.timestamp env))

/-- The counts and the time of the last report that parsed. -/
def lastGood (reports : List (Option Bytes)) : PacketCounts × BitVec 64 :=
  reports.foldl (fun last report => match report with
    | some text => if (parseJson env text).2 = none then reading env text else last
    | none => last) (fun _ => 0, 0)

/-- An erroneous report leaves what is stored, and a good one is reported relative to the last good one, without
    wrapping where a count has not decreased. -/
structure Survives (front : List (Option Bytes)) (report : Option Bytes) (stats : AvsStats) : Prop where
  kept : (statsUpdate env report stats).2 ≠ none →
    stored (statsUpdate env report stats).1 = stored stats
  relative : ∀ text, report = some text → (parseJson env text).2 = none →
    let obj := (parseJson env text).1
    let last := lastGood env front
    (statsUpdate env report stats).1.report = interval env last obj.packets (obj.timestamp env) ∧
      ∀ counter, last.1 counter ≤ obj.packets counter →
        (obj.packets counter - last.1 counter).toNat = (obj.packets counter).toNat - (last.1 counter).toNat

end

variable {Double : Type} {env : Env Double}

theorem reading_failed {text : Bytes} (failed : (parseJson env text).2 ≠ none) :
    reading env text = (fun _ => 0, 0) := by
  have empty : (parseJson env text).1 = {} := by
    unfold parseJson at failed ⊢
    split <;> simp_all
  have none_ : (({} : StatsObj Double)).packets = fun _ => 0 := by
    funext counter
    cases counter <;> rfl
  simp only [reading, empty, none_, Prod.mk.injEq, true_and]
  simp [StatsObj.timestamp, normalizeTimestampToMs, env.zero_toUInt64]

theorem stored_lastGood {reports : List (Option Bytes)}
    (harmless : ∀ front text back, reports = front ++ some text :: back → (parseJson env text).2 ≠ none →
      stored (after env front) = (fun _ => 0, 0)) :
    stored (after env reports) = lastGood env reports := by
  induction reports using List.reverseRecOn with
  | nil => rfl
  | append_singleton front report ih =>
    have before := ih fun front' text back split => harmless front' text (back ++ [report]) (by simp [split])
    simp only [after, lastGood, List.foldl_append, List.foldl_cons, List.foldl_nil] at before ⊢
    cases report with
    | none => exact before
    | some text =>
      by_cases good : (parseJson env text).2 = none
      · simp only [if_pos good]
        rfl
      · simp only [if_neg good]
        rw [← before]
        exact (reading_failed good).trans (harmless front text [] rfl good).symm

/-- Over any reports, all that is asked of each holds exactly when a report that fails to parse never finds a count or a
    time stored. -/
theorem reports_survived_iff (env : Env Double) (reports : List (Option Bytes)) :
    (∀ front report back, reports = front ++ report :: back →
        Survives env front report (after env front)) ↔
      ∀ front text back, reports = front ++ some text :: back → (parseJson env text).2 ≠ none →
        stored (after env front) = (fun _ => 0, 0) := by
  constructor
  · intro survives front text back split failed
    have kept := (survives front (some text) back split).kept failed
    exact kept.symm.trans (reading_failed failed)
  · intro harmless front report back split
    have last : stored (after env front) = lastGood env front :=
      stored_lastGood fun front' text back' split' =>
        harmless front' text (back' ++ report :: back) (by simp [split, split'])
    refine ⟨fun failed => ?_, ?_⟩
    · cases report with
      | none => rfl
      | some text => exact (reading_failed failed).trans (harmless front text back split failed).symm
    · rintro text rfl good
      refine ⟨by rw [← last]; rfl, fun counter le => BitVec.toNat_sub_of_le le⟩

/-- A report of seven audio packets received within a second. -/
def seven : Bytes :=
  ascii "[\x7b\"type\":\"inbound-rtp\",\"kind\":\"audio\",\"packetsReceived\":7,\"timestamp\":1000\x7d]"

def sevenItem : Json := .object [("type", .string (ascii "inbound-rtp")), ("kind", .string (ascii "audio")),
  ("packetsReceived", .int 7), ("timestamp", .int 1000)]

/-- Times are whole milliseconds. -/
def oneStream : Env Nat where
  libre := Jzon.knowing [(seven, [("0", sevenItem)])]
  zero := 0
  ofBits := BitVec.toNat
  ofInt := BitVec.toNat
  max := max
  aboveRefTsUs _ := false
  thousandth := (· / 1000)
  toUInt64 := BitVec.ofNat 64
  equal difference timestamp := difference.toNat = timestamp
  percentage _ _ := 0
  zero_toUInt64 := by decide

/-- An empty report is an error, and the counts and the time of the report before it are gone. -/
theorem empty_report_forgets : Jzon.printJson (.array [sevenItem]) = some seven ∧
      (after oneStream [some seven]).lastPackets .audioRx = 7 ∧
      (after oneStream [some seven]).lastTimestampInMs = 1000 ∧
      (statsUpdate oneStream (some []) (after oneStream [some seven])).2 = some .EPROTO ∧
      stored (after oneStream [some seven, some []]) = (fun _ => 0, 0) :=
  ⟨by decide +kernel, by decide +kernel, by decide +kernel, rfl,
    show reading oneStream [] = _ from reading_failed (by decide)⟩

end Avs.Stats
