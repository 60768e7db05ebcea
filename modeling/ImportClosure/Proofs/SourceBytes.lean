import ImportClosure.Proofs.DiskLookup
import ImportClosure.Syntax.Node
/-!
What becomes of the bytes of a source.

A source is read as UTF-8 if its bytes are well-formed and as Latin-1 if they are not, and either
way its bytes can be had back from its text (`Disk.encode_sourceText`,
`Latin1.encode?_decode`). The parser is given the bytes of the text, which are those of the file
only in the first case. So a node that covers them has the text that was read, whatever the file,
though lossy decoding stands between (`Disk.read_lossless`).
-/

namespace ImportClosure

namespace SyntaxNode

variable {n : SyntaxNode} {bs : Bytes} {t : Text}

theorem text_of_bytes (h : n.bytes = some bs) : n.text = Utf8.decodeLossy bs := by
  unfold text
  rw [h]

/-- A node that covers the bytes of a text has this text. -/
theorem text_of_encode (h : n.bytes = some bs) (ht : Utf8.encode t = .ok bs) : n.text = t := by
  rw [text_of_bytes h]
  exact Utf8.decodeLossyFrom_eq (Utf8.decode_eq_ok_iff.2 ht)

end SyntaxNode

namespace Disk

variable {d : Disk} {limit : Option Int} {path : Text} {content : Bytes}

/-- Well-formed bytes are the UTF-8 of their text, with every line end and mark that they hold. -/
theorem encode_sourceText (h : Utf8.IsWellFormed content) :
    Utf8.encode (sourceText content) = .ok content := by
  obtain ⟨t, ht⟩ := Utf8.exists_decode_iff.2 h
  unfold sourceText
  rw [ht]
  exact Utf8.decode_eq_ok_iff.1 ht

/-- Other bytes are read one by one. -/
theorem sourceText_of_not_isWellFormed (h : ¬Utf8.IsWellFormed content) :
    sourceText content = Latin1.decode content := by
  unfold sourceText
  cases hdecode : Utf8.decode content with
  | ok t => exact absurd (Utf8.exists_decode_iff.1 ⟨t, hdecode⟩) h
  | error why => rfl

/-! ## Two files -/

/-- A disk with the two files `a` and `b`: one begins with a byte order mark and a line end of two
bytes, and the other goes on with a byte that is no UTF-8. -/
def markedDisk : Disk where
  working := []
  entries := .ofList
    [([['a']], .file [0xEF, 0xBB, 0xBF, 0x0D, 0x0A]),
      ([['b']], .file [0xEF, 0xBB, 0xBF, 0x0D, 0x0A, 0xE9])]

/-- **Source bytes.** A file that is not too large is read as a text, never with an error. Its bytes
are the UTF-8 of this text if they are well-formed, and its Latin-1, one byte for each code point,
if they are not. The text has bytes for the parser, and a node that covers all of them has the text
that was read. Of any bytes, the text of a node that covers them has bytes too, and these are the
same exactly if they are well-formed. -/
theorem read_lossless (hfind : d.find (Path.clean path) = .ok (.file content))
    (hfits : Fits limit content) :
    (∃ t bs, (d.reader limit).read path = .ok t
        ∧ (Utf8.IsWellFormed content → Utf8.encode t = .ok content)
        ∧ (¬Utf8.IsWellFormed content →
            t.length = content.length ∧ Latin1.encode? t = some content)
        ∧ Utf8.encode t = .ok bs
        ∧ ∀ n : SyntaxNode, n.bytes = some bs → n.text = t)
      ∧ ∀ (n : SyntaxNode) (bs : Bytes), n.bytes = some bs →
          ∃ bs', Utf8.encode n.text = .ok bs' ∧ (bs' = bs ↔ Utf8.IsWellFormed bs) := by
  constructor
  · have hread : (d.reader limit).read path = .ok (sourceText content) :=
      reader_read_eq_ok_iff.2 ⟨content, hfind, hfits, rfl⟩
    have hbytes := Utf8.encode_eq_ok (sourceText_isEncodable content)
    have hlatin1 : ¬Utf8.IsWellFormed content → (sourceText content).length = content.length
        ∧ Latin1.encode? (sourceText content) = some content := by
      intro h
      rw [sourceText_of_not_isWellFormed h]
      exact ⟨List.length_map _, Latin1.encode?_decode content⟩
    exact ⟨_, _, hread, encode_sourceText, hlatin1, hbytes,
      fun n h => SyntaxNode.text_of_encode h hbytes⟩
  · intro n bs h
    rw [SyntaxNode.text_of_bytes h]
    exact ⟨_, Utf8.encode_decodeLossy bs⟩

/-- The first file of the disk is read as UTF-8, with its mark and its line end, and the second,
which has as many bytes as are allowed, as Latin-1. -/
theorem markedDisk_lossless :
    (∃ t, (markedDisk.reader (some 6)).read ['a'] = .ok t
        ∧ Utf8.encode t = .ok [0xEF, 0xBB, 0xBF, 0x0D, 0x0A])
      ∧ ∃ t, (markedDisk.reader (some 6)).read ['b'] = .ok t
        ∧ t.length = 6 ∧ Latin1.encode? t = some [0xEF, 0xBB, 0xBF, 0x0D, 0x0A, 0xE9] := by
  have ha : markedDisk.find (Path.clean ['a']) = .ok (.file [0xEF, 0xBB, 0xBF, 0x0D, 0x0A]) := rfl
  have hb : markedDisk.find (Path.clean ['b'])
      = .ok (.file [0xEF, 0xBB, 0xBF, 0x0D, 0x0A, 0xE9]) := rfl
  have hfits : Fits (some 6) [0xEF, 0xBB, 0xBF, 0x0D, 0x0A] := by decide
  have hfits' : Fits (some 6) [0xEF, 0xBB, 0xBF, 0x0D, 0x0A, 0xE9] := by decide
  obtain ⟨⟨t, -, ht, hwell, -⟩, -⟩ := read_lossless ha hfits
  obtain ⟨⟨u, -, hu, -, hill, -⟩, -⟩ := read_lossless hb hfits'
  exact ⟨⟨t, ht, hwell (by decide)⟩, u, hu, hill (by decide)⟩

end Disk

end ImportClosure
