import ServiceBalancer.Cloud.Error
import ServiceBalancer.Proofs.Text.Lines

/-! The readable part of a provider's message. It is what follows the last marker of the first line that has one, and
there is nothing more to cut off it. -/
namespace ServiceBalancer
open Text (Ruled FromLast)
variable {message : String}

theorem messageMarker_plain : messageMarker ≠ [] ∧ '\n' ∉ messageMarker ∧ '\r' ∉ messageMarker := by decide

theorem readablePart_of_not_marked (h : ¬messageMarker <:+: message.toList) : readablePart message = message := by
  have hruled : Ruled message.toList (Text.lines message.toList) := Text.ruled_iff.mpr rfl
  obtain ⟨hm, hn, hr⟩ := messageMarker_plain
  have hnone : (Text.lines message.toList).findSome? (Text.fromLast? messageMarker) = none := by
    refine List.findSome?_eq_none_iff.mpr fun line hl => Text.fromLast?_eq_none.mpr fun hmarked => h ?_
    exact (hruled.infix_iff hm hn hr).mpr ⟨line, hl, hmarked⟩
  rw [readablePart, hnone]

theorem readablePart_of_marked (h : messageMarker <:+: message.toList) :
    ∃ earlier line later, Ruled message.toList (earlier ++ line :: later) ∧
      (∀ other ∈ earlier, ¬messageMarker <:+: other) ∧ FromLast messageMarker line (readablePart message).toList := by
  have hruled : Ruled message.toList (Text.lines message.toList) := Text.ruled_iff.mpr rfl
  obtain ⟨hm, hn, hr⟩ := messageMarker_plain
  obtain ⟨marked, hl, hmarked⟩ := (hruled.infix_iff hm hn hr).mp h
  cases hfound : (Text.lines message.toList).findSome? (Text.fromLast? messageMarker) with
  | none => exact absurd hmarked (Text.fromLast?_eq_none.mp (List.findSome?_eq_none_iff.mp hfound marked hl))
  | some tail =>
    obtain ⟨earlier, line, later, hlines, htail, hearlier⟩ := List.findSome?_eq_some_iff.mp hfound
    refine ⟨earlier, line, later, hlines ▸ hruled, fun other ho => Text.fromLast?_eq_none.mp (hearlier other ho), ?_⟩
    rw [readablePart, hfound, String.toList_ofList]
    exact Text.fromLast?_eq_some.mp htail

/-- A line that begins with its last marker has nothing more to cut off. -/
theorem readablePart_of_headed (hwhole : '\n' ∉ message.toList)
    (h : FromLast messageMarker message.toList message.toList) : readablePart message = message := by
  have hfilled : message.toList ≠ [] := by
    intro he
    exact messageMarker_plain.1 (List.prefix_nil.mp (he ▸ h.starts))
  have hlines : Text.lines message.toList = [message.toList] := Text.ruled_iff.mp (.last hfilled hwhole)
  rw [readablePart, hlines, List.findSome?_singleton, Text.fromLast?_eq_some.mpr h]
  exact String.ofList_toList

/-- A message without a marker is readable as a whole. Of another one the readable part is what the first line with a
marker has from its last marker on, up to the end of that line. So it begins with the marker, has it once, and is a part
of one line of the message. What is readable is readable as a whole. -/
theorem readablePart_from_last_marker (message : String) :
    (¬messageMarker <:+: message.toList → readablePart message = message) ∧
    (messageMarker <:+: message.toList →
      (∃ earlier line later, Ruled message.toList (earlier ++ line :: later) ∧
        (∀ other ∈ earlier, ¬messageMarker <:+: other) ∧ FromLast messageMarker line (readablePart message).toList) ∧
      messageMarker <+: (readablePart message).toList ∧
      (∀ before after, before ++ messageMarker ++ after = (readablePart message).toList → before = []) ∧
      '\n' ∉ (readablePart message).toList ∧ (readablePart message).toList <:+: message.toList) ∧
    readablePart (readablePart message) = readablePart message := by
  by_cases hmarked : messageMarker <:+: message.toList
  · obtain ⟨earlier, line, later, hruled, hearlier, hpart⟩ := readablePart_of_marked hmarked
    obtain ⟨hwhole, hline⟩ := hruled.of_mem (List.mem_append_right _ (.head _))
    have hbreak : '\n' ∉ (readablePart message).toList := fun h => hwhole (hpart.ends.subset h)
    refine ⟨fun hnot => absurd hmarked hnot, fun _ => ⟨⟨earlier, line, later, hruled, hearlier, hpart⟩, hpart.starts,
      fun before after he => hpart.once he, hbreak, hpart.ends.isInfix.trans hline⟩, ?_⟩
    exact readablePart_of_headed hbreak hpart.self
  · have hsame := readablePart_of_not_marked hmarked
    exact ⟨fun _ => hsame, fun h => absurd h hmarked, congrArg readablePart hsame⟩

private def report : String := "ErrorCode: Busy\r\nSee: docs Message: old Message: in use\r\r\nMessage: later"

theorem readablePart_from_last_marker_report :
    messageMarker <:+: report.toList ∧ readablePart report = "Message: in use\r" ∧
      readablePart "Message: in use\r" = "Message: in use\r" ∧ "Message: in use\r".toList <:+: report.toList ∧
      ¬messageMarker <:+: "message: plain\n".toList ∧ readablePart "message: plain\n" = "message: plain\n" := by
  obtain ⟨-, hmarked, hagain⟩ := readablePart_from_last_marker report
  have hreport : messageMarker <:+: report.toList := by decide
  have hread : readablePart report = "Message: in use\r" := by decide
  rw [hread] at hmarked hagain
  have hplain : ¬messageMarker <:+: "message: plain\n".toList := by decide
  exact ⟨hreport, hread, hagain, (hmarked hreport).2.2.2.2, hplain, (readablePart_from_last_marker _).1 hplain⟩

end ServiceBalancer
