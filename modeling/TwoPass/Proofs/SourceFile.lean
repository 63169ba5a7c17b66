import TwoPass.Proofs.Session
import TwoPass.Proofs.Text.LineBreak
import TwoPass.Proofs.Text.Utf8

/-! Assembling a file and assembling its text.

A file is read with line feeds for all its line ends, while a text is taken as it stands. Both have the
same lines, so it makes no difference to a session in which of the two ways it is given a source. -/

set_option autoImplicit false

namespace TwoPass

theorem FileTree.readText_of_read {tree : FileTree} {path : Path} {source : Text}
    (holds : tree.read path = .ok (Utf8.encode source)) :
    tree.readText path = .ok (Text.unifyLineEnds source) := by
  simp only [readText, holds, bind, Except.bind, Utf8.decode_eq_ok_iff.mpr rfl]

theorem FileTree.readText_of_foreign {tree : FileTree} {path : Path} {bytes : List UInt8}
    (holds : tree.read path = .ok bytes) (foreign : ∀ source, bytes ≠ Utf8.encode source) :
    ∃ fault, tree.readText path = .error (.undecodable fault) := by
  cases decoded : Utf8.decode bytes with
  | error fault => exact ⟨fault, by simp only [readText, holds, bind, Except.bind, decoded]⟩
  | ok source => exact absurd (Utf8.decode_eq_ok_iff.mp decoded) (foreign source)

namespace Session

theorem assembleText_unifyLineEnds (session : Session) (file source : Text) :
    session.assembleText file (Text.unifyLineEnds source) = session.assembleText file source := by
  rw [assembleText, assembleText, Text.splitLines_unifyLineEnds]

theorem assembleFile_eq {tree : FileTree} {path : Path} {source : Text} (session : Session)
    (holds : tree.read path = .ok (Utf8.encode source)) :
    session.assembleFile tree path =
      let after := (session.note (.assembling path.text)).assembleText path.text source
      (after, after.run.result.mapError .assembly) := by
  simp only [assembleFile, FileTree.readText_of_read holds, assembleText_unifyLineEnds]

/-- A file that holds the UTF-8 of a source is assembled as that source is, under the name of the file and
with its line ends as they stand: with the same answer, the same run and the same settings. In the
events there is one more in front, which names the file. -/
theorem file_assembles_as_text (session : Session) (tree : FileTree) (path : Path) (source : Text)
    (holds : tree.read path = .ok (Utf8.encode source)) :
    let byFile := session.assembleFile tree path
    let byText := session.assembleText path.text source
    byFile.2 = byText.run.result.mapError .assembly ∧ byFile.1.run = byText.run ∧
      byFile.1.settings = byText.settings ∧
      ∃ added, byText.events = session.events ++ added ∧
        byFile.1.events = session.events ++ .assembling path.text :: added := by
  intro byFile byText
  have same : byFile = _ := session.assembleFile_eq holds
  have run : byFile.1.run = byText.run := by
    rw [same, run_assembleText, run_assembleText]
    rfl
  refine ⟨?_, run, ?_, ?_⟩
  · rw [← run, same]
  · rw [same, settings_assembleText, settings_assembleText]
    rfl
  · refine ⟨_, session.events_assembleLines path.text (Text.splitLines source), ?_⟩
    rw [same, assembleText, events_assembleLines, note, List.append_assoc, List.singleton_append]

/-- Line ends of every kind, and characters of one byte, two and three. -/
theorem file_assembles_as_text_mixed :
    let source : Text := ".code\r\n:A\r; é\u2028\tpush r1\u000c\n\rbrr :A\n"
    let tree : FileTree := { files := [(["src", "demo"], Utf8.encode source)] }
    let path := Path.ofText "./src//demo"
    let text := ((start {}).assembleText path.text source).run
    tree.read path = .ok (Utf8.encode source) ∧
      ((start {}).assembleFile tree path).2 = text.result.mapError .assembly ∧
      ((start {}).assembleFile tree path).1.run = text ∧ path.text = "src/demo" ∧
      text.result.toOption =
        some ([".code", "\tsubi r31, 8", "\tmov (r31)(0), r1", "\tbrr -8"] : List Text) := by
  intro source tree path text
  have holds : tree.read path = .ok (Utf8.encode source) := by rfl
  have run : text = _ := run_assembleText (start {}) path.text source
  obtain ⟨answer, same, -⟩ := file_assembles_as_text (start {}) tree path source holds
  refine ⟨holds, answer, same, by decide +kernel, ?_⟩
  rw [run]
  decide +kernel

end Session

end TwoPass
