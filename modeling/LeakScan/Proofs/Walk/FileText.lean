import LeakScan.Proofs.Disk.Follow
import LeakScan.Proofs.Text.Utf8
import LeakScan.Scan.Walk

namespace LeakScan

namespace Text

/-- The second text is the first one with a line feed in place of each carriage return, which takes
a line feed behind it along. All else is kept. -/
inductive UniformEnds : List Char → List Char → Prop where
  | nil : UniformEnds [] []
  | pair {s t : List Char} : UniformEnds s t → UniformEnds ('\r' :: '\n' :: s) ('\n' :: t)
  | alone {s t : List Char} : s.head? ≠ some '\n' → UniformEnds s t →
    UniformEnds ('\r' :: s) ('\n' :: t)
  | kept {c : Char} {s t : List Char} : c ≠ '\r' → UniformEnds s t → UniformEnds (c :: s) (c :: t)

theorem uniformEnds_uniformLineEnds (s : List Char) : UniformEnds s (uniformLineEnds s) := by
  fun_induction uniformLineEnds s with
  | case1 => exact .nil
  | case2 s ih => exact .pair ih
  | case3 c s h ih =>
    by_cases hc : c = '\r'
    · rw [if_pos hc, hc]
      refine .alone (fun hs => ?_) ih
      obtain ⟨r, hr⟩ := List.head?_eq_some_iff.1 hs
      exact h r hc hr
    · rw [if_neg hc]
      exact .kept hc ih

variable {bytes : List UInt8} {e : Utf8Failure}

/-- The report names a position, that of the one byte at fault, or of the first where there are
more. -/
inductive PointsAt (bytes : List UInt8) (position : Nat) : String → Prop where
  | one (b : UInt8) (fault : Utf8Fault) : bytes[position]? = some b →
    PointsAt bytes position ("'utf-8' codec can't decode byte 0x" ++ hexByte b ++
      " in position " ++ toString position ++ ": " ++ fault.message)
  | range (last : Nat) (fault : Utf8Fault) : position < last → last < bytes.length →
    PointsAt bytes position ("'utf-8' codec can't decode bytes in position " ++
      toString position ++ "-" ++ toString last ++ ": " ++ fault.message)

theorem pointsAt_message (h : decodeUtf8 bytes = .error e) :
    PointsAt bytes e.position e.message := by
  obtain ⟨-, b, good, hspan, hstands⟩ := fault_of_decodeUtf8 h
  have hlength := hstands.length_le
  rw [List.length_drop] at hlength
  cases good with
  | nil =>
    have hb : bytes[e.position]? = some b := by
      obtain ⟨r, hr⟩ := hstands
      rw [← List.head?_drop, ← hr]
      rfl
    simp only [Utf8Failure.message, hspan]
    exact .one b e.fault hb
  | cons c good =>
    simp only [Utf8Failure.message, hspan]
    simp only [List.length_cons] at hlength ⊢
    exact .range _ e.fault (by omega) (by omega)

end Text

variable {disk : Disk} {path : String} {bytes : List UInt8} {cs : List Char} {access : Access}

theorem documentAt_decoded (hread : disk.readAt path = .ok bytes)
    (h : Text.decodeUtf8 bytes = .ok cs) (relative : Location) :
    documentAt disk path relative =
      { path := relativeText relative, text := some (String.ofList (Text.uniformLineEnds cs)) } := by
  simp only [documentAt, hread, textOfBytes, h, Except.map]

theorem documentAt_undecoded {e : Text.Utf8Failure} (hread : disk.readAt path = .ok bytes)
    (h : Text.decodeUtf8 bytes = .error e) (relative : Location) :
    documentAt disk path relative =
      { path := relativeText relative, text := none, readError := some e.message } := by
  simp only [documentAt, hread, textOfBytes, h, Except.map]

/-- A document holds what some bytes say: their text, or where they are no text. -/
structure Document.TellsOf (d : Document) (bytes : List UInt8) : Prop where
  text_iff : d.text.isSome ↔ Text.IsUtf8 bytes
  readError_iff : d.readError.isSome ↔ ¬ Text.IsUtf8 bytes
  text : ∀ text, d.text = some text → '\r' ∉ text.toList ∧
    ∃ content : String, content.toUTF8 = bytes.toByteArray ∧
      Text.UniformEnds content.toList text.toList
  /-- A mark of byte order is a character of the text. -/
  mark : ∀ text rest, d.text = some text → bytes = 0xEF :: 0xBB :: 0xBF :: rest →
    text.toList.head? = some '\uFEFF'
  plain : ∀ s : String, '\r' ∉ s.toList → s.toUTF8 = bytes.toByteArray → d.text = some s
  readError : ∀ message, d.readError = some message →
    ∃ position, Text.LongestUtf8 bytes position ∧ Text.PointsAt bytes position message

theorem head?_of_mark {rest : List UInt8}
    (h : Text.decodeUtf8 (0xEF :: 0xBB :: 0xBF :: rest) = .ok cs) : cs.head? = some '\uFEFF' := by
  have hmark : (0xEF :: 0xBB :: 0xBF :: rest : List UInt8) =
      Text.encodeChar '\uFEFF' ++ rest := rfl
  rw [hmark, Text.decodeUtf8, Text.utf8From_char] at h
  cases hrest : Text.utf8From (0 + (Text.encodeChar '\uFEFF').length) 0 rest with
  | error e =>
    rw [hrest] at h
    cases h
  | ok ds =>
    rw [hrest] at h
    rw [← Except.ok.inj h]
    rfl

/-- The document of a file that can be opened has either a text or a report. The text is that of the
bytes with uniform line ends, and the report names the place where they stop being UTF-8. -/
theorem file_text_exact (hfile : disk.node path = .ok (.file bytes access))
    (haccess : access.read = true) (relative : Location) :
    (documentAt disk path relative).TellsOf bytes := by
  have hread : disk.readAt path = .ok bytes := Disk.readAt_of_readable hfile haccess
  cases h : Text.decodeUtf8 bytes with
  | ok cs =>
    have hutf8 : Text.IsUtf8 bytes := Text.isUtf8_of_decoded h
    have hcontent : (String.ofList cs).toUTF8 = bytes.toByteArray :=
      Text.decodeUtf8_eq_ok_iff_toUTF8.1 (by rwa [String.toList_ofList])
    rw [documentAt_decoded hread h]
    refine ⟨by simpa using hutf8, by simpa using hutf8, fun text htext => ?_,
      fun text rest htext hmark => ?_, fun s hs hbytes => ?_, by simp⟩
    · obtain rfl := Option.some.inj htext
      rw [String.toList_ofList]
      refine ⟨Text.not_mem_uniformLineEnds cs, _, hcontent, ?_⟩
      rw [String.toList_ofList]
      exact Text.uniformEnds_uniformLineEnds cs
    · obtain rfl := Option.some.inj htext
      obtain ⟨ds, rfl⟩ := List.head?_eq_some_iff.1 (head?_of_mark (hmark ▸ h))
      rw [String.toList_ofList, Text.uniformLineEnds.eq_3 _ _ (fun _ hc _ => by cases hc)]
      rfl
    · obtain rfl := Except.ok.inj (h.symm.trans (Text.decodeUtf8_eq_ok_iff_toUTF8.2 hbytes))
      rw [Text.uniformLineEnds_eq_self hs, String.ofList_toList]
  | error e =>
    have hutf8 : ¬ Text.IsUtf8 bytes := by
      rw [Text.isUtf8_iff]
      rintro ⟨cs, hcs⟩
      rw [Text.decodeUtf8_eq_ok_iff.2 hcs] at h
      cases h
    rw [documentAt_undecoded hread h]
    refine ⟨by simpa using hutf8, by simpa using hutf8, by simp, by simp, fun s _ hbytes => ?_,
      fun message hmessage => ?_⟩
    · rw [Text.decodeUtf8_eq_ok_iff_toUTF8.2 hbytes] at h
      cases h
    · obtain rfl := Option.some.inj hmessage
      exact ⟨e.position, (Text.fault_of_decodeUtf8 h).1, Text.pointsAt_message h⟩

def cutShort : List UInt8 := [0xEF, 0xBB, 0xBF, 0x61, 0x0D, 0x0A, 0xF0, 0x9F, 0x98]

def cutShortDisk : Disk := ⟨.directory [("f", .file cutShort .full)] .full, []⟩

theorem file_text_exact_cut : cutShortDisk.node "/f" = .ok (.file cutShort .full) ∧
    ¬ Text.IsUtf8 cutShort ∧ ∃ position, Text.LongestUtf8 cutShort position ∧
      Text.PointsAt cutShort position
        "'utf-8' codec can't decode bytes in position 6-8: unexpected end of data" := by
  have hfile : cutShortDisk.node "/f" = .ok (.file cutShort .full) := rfl
  have hmessage : (documentAt cutShortDisk "/f" ["f"]).readError =
      some "'utf-8' codec can't decode bytes in position 6-8: unexpected end of data" := by
    decide
  have h := file_text_exact hfile rfl ["f"]
  exact ⟨hfile, h.readError_iff.1 (by rw [hmessage]; rfl), h.readError _ hmessage⟩

end LeakScan
