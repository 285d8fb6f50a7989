import TelemetryRelay.Proofs.Frame.Decoding
import TelemetryRelay.Proofs.Json.Doubles
import TelemetryRelay.Proofs.Json.Printing

/-!
# Frames that are written and read back

The text of a frame is a document of the grammar. It gives the channel and the time of the frame
again, and its value as far as the text of the value gives it (`Json.ReadsBack`).

* `document_text`: the document that the text of a frame is.
* `survives`: **reading and decoding the text of a frame give a frame with the same channel and time
  and a value beside the frame's.**
* `greatest_odd_changes`: the value need not be the same, even if it is a whole number.
-/

namespace TelemetryRelay

open Decimal (IsInt64 isFinite)
open Json (Document NumberText ReadsBack ValueText)
open Utf8 (octets)

variable {f : Frame} {y : Float}

theorem Json.ReadsBack.numberText {x : Float} (h : ReadsBack x y) :
    NumberText (Json.Number.chars (.real x)) (.real y) := by
  obtain ⟨l, htext, -, hnumber⟩ := h.numeral
  exact ⟨l, htext, hnumber⟩

namespace Frame

/-- **The text of a frame is a document**, of the frame with the value that is read. -/
theorem document_text (htime : IsInt64 f.timestamp) (hvalue : ReadsBack f.value y) :
    Document f.text.toList (toJson { f with value := y }) := by
  have hchannel (depth : Nat) :
      ValueText depth (Json.chars (.string f.channel)) (.string f.channel) := by
    have htext := @ValueText.string depth _ _ (Json.bodyText_escape f.channel.toList)
    rwa [String.ofList_toList] at htext
  have hstamp : NumberText (Decimal.ofInt f.timestamp) (.integer f.timestamp) :=
    Json.numberText_integer_iff.2 ⟨rfl, htime.1, htime.2.trans (by decide)⟩
  obtain ⟨depth, hdepth⟩ : ∃ depth, Json.nestingLimit = depth + 1 := ⟨_, rfl⟩
  have hfields := @Json.valueText_fields depth
    [("channelKey", .string f.channel, .string f.channel), ("value", .ofFloat f.value, .ofFloat y),
      ("timestamp", .ofInt f.timestamp, .ofInt f.timestamp)] (by
    simp only [List.forall_mem_cons]
    exact ⟨hchannel _, .number hvalue.numberText, .number hstamp, nofun⟩)
  refine ⟨[], Json.chars f.toJson, [], nofun, nofun, ?_, hdepth ▸ hfields⟩
  rw [List.append_nil, List.nil_append, text, Json.compact, String.toList_ofList]

theorem timestamp?_ofInt (htime : IsInt64 f.timestamp) :
    Sample.timestamp? (.ofInt f.timestamp) = some (some f.timestamp) := if_pos htime.2

/-- The document of a frame gives the frame again. -/
theorem ofJson?_toJson (htime : IsInt64 f.timestamp) : ofJson? f.toJson = some f := by
  show (Sample.timestamp? (.ofInt f.timestamp)).bind _ = some f
  rw [timestamp?_ofInt htime]
  rfl

/-- As a sample, that document gives the value and the time. -/
theorem sample_toJson (htime : IsInt64 f.timestamp) :
    Sample.ofJson? f.toJson = some ⟨f.value, some f.timestamp⟩ := by
  show (Sample.timestamp? (.ofInt f.timestamp)).map _ = _
  rw [timestamp?_ofInt htime]
  rfl

/-- **Reading and decoding the text of a frame** give a frame with the same channel and time and a
value beside the frame's. -/
theorem survives (f : Frame) (hvalue : isFinite f.value = true) (htime : IsInt64 f.timestamp) :
    ∃ y, ReadsBack f.value y ∧ Document f.text.toList (toJson { f with value := y }) ∧
      parse? f.text = some { f with value := y } ∧
      ∀ topic receivedAt, decode topic (octets f.text) receivedAt =
        .ok ⟨topic, y, f.timestamp⟩ := by
  obtain ⟨y, hy⟩ := Json.exists_readsBack hvalue
  have hdocument := document_text htime hy
  refine ⟨y, hy, hdocument, ?_, fun topic receivedAt => ?_⟩
  · rw [parse?, Json.parse?_eq_some_iff.2 hdocument]
    exact @ofJson?_toJson { f with value := y } htime
  · rw [decode_document hdocument, @sample_toJson { f with value := y } htime]
    rfl

/-- A value with few digits is read back as it is. -/
theorem survives_tenth : isFinite 0.1 = true ∧ IsInt64 (-5) ∧
    parse? (text ⟨"bay/\"1\"", 0.1, -5⟩) = some ⟨"bay/\"1\"", 0.1, -5⟩ ∧
    decode "bay/level" (octets (text ⟨"bay/\"1\"", 0.1, -5⟩)) 7 = .ok ⟨"bay/level", 0.1, -5⟩ := by
  have hvalue : isFinite 0.1 = true := by decide +kernel
  have htime : IsInt64 (-5) := ⟨by decide, by decide⟩
  obtain ⟨y, hy, -, hparse, hdecode⟩ := survives ⟨"bay/\"1\"", 0.1, -5⟩ hvalue htime
  obtain rfl : y = 0.1 := hy.exact (by decide +kernel) (by decide +kernel)
  exact ⟨hvalue, htime, hparse, hdecode _ _⟩

/-- **The value need not survive**: the greatest odd whole number that is a double is written with
all its digits and a zero behind the point, which together are too many for one double. -/
theorem greatest_odd_changes : isFinite 9007199254740991 = true ∧ IsInt64 0 ∧
    text ⟨"alt", 9007199254740991, 0⟩ =
      "\x7b\"channelKey\":\"alt\",\"value\":9007199254740991.0,\"timestamp\":0\x7d" ∧
    (parse? (text ⟨"alt", 9007199254740991, 0⟩)).map (fun g => g.value.toBits) =
      some (Float.toBits 9007199254740990) ∧
    parse? (text ⟨"alt", 9007199254740991, 0⟩) ≠ some ⟨"alt", 9007199254740991, 0⟩ := by
  have hread : (parse? (text ⟨"alt", 9007199254740991, 0⟩)).map (fun g => g.value.toBits) =
      some (Float.toBits 9007199254740990) := by decide +kernel
  refine ⟨by decide +kernel, ⟨by decide, by decide⟩, by decide +kernel, hread, fun h => ?_⟩
  rw [h] at hread
  exact absurd hread (by decide +kernel)

end Frame

end TelemetryRelay
