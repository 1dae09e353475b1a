/-
  Where tokens stand.

  Scanning a text cuts pieces out of it.  Each token is such a piece, with a span that
  counts the bytes before it (`Token.PieceOf`).  The pieces come in the order of the text
  and do not overlap, and the end of input stands after all of them (`scanned_pieces`).
-/
import Reckon.Grammar.Cursor

namespace Reckon

/-! ### Pieces -/

structure Token.PieceOf (file : String) (offset : Nat) (text : List Char) (t : Token) : Prop where
  notEnd : t.kind ≠ .eof
  nonempty : t.text ≠ ""
  stands : ∃ front back, text = front ++ (t.text.toList ++ back) ∧
    t.span = .within file (offset + byteLength front)
      (offset + byteLength front + byteLength t.text.toList)

def Token.Before (t u : Token) : Prop := t.span.stop.offset ≤ u.span.start.offset

variable {file : String} {offset : Nat} {text front : List Char} {t u : Token}

theorem byteLength_pos (nonempty : text ≠ []) : 0 < byteLength text := by
  obtain ⟨c, rest, rfl⟩ := List.exists_cons_of_ne_nil nonempty
  exact Nat.lt_of_lt_of_le c.utf8Size_pos (Nat.le_add_right _ _)

namespace Token.PieceOf

theorem later (piece : t.PieceOf file (offset + byteLength front) text) :
    t.PieceOf file offset (front ++ text) := by
  obtain ⟨notEnd, nonempty, front', back, rfl, span⟩ := piece
  refine ⟨notEnd, nonempty, front ++ front', back, by simp, ?_⟩
  rw [span, byteLength_append, Nat.add_assoc, Nat.add_assoc]

theorem start_ge (piece : t.PieceOf file offset text) : offset ≤ t.span.start.offset := by
  obtain ⟨-, -, front, back, -, span⟩ := piece
  rw [span]
  exact Nat.le_add_right _ _

theorem stop_le (piece : t.PieceOf file offset text) :
    t.span.stop.offset ≤ offset + byteLength text := by
  obtain ⟨-, -, front, back, rfl, span⟩ := piece
  rw [span]
  simp only [Span.within, byteLength_append]
  omega

theorem start_lt_stop (piece : t.PieceOf file offset text) :
    t.span.start.offset < t.span.stop.offset := by
  obtain ⟨-, nonempty, front, back, -, span⟩ := piece
  have pos : 0 < byteLength t.text.toList := byteLength_pos (by simpa using nonempty)
  rw [span]
  exact Nat.lt_add_of_pos_right pos

/-- A piece that ends before another begins also begins before it. -/
theorem starts_before (piece : t.PieceOf file offset text) (before : t.Before u) :
    t.span.start.offset < u.span.start.offset :=
  Nat.lt_of_lt_of_le piece.start_lt_stop before

end Token.PieceOf

theorem kind_ne_eof_of_lexeme {c : Char} {next : List Char} {kind : TokenKind}
    (makes : (lexeme c next).kind = some kind) : kind ≠ .eof := by
  unfold lexeme at makes
  split at makes
  · cases makes
    unfold wordKind
    split
    · nofun
    · split <;> nofun
  split at makes
  · cases makes
    nofun
  split at makes
  · cases makes
  split at makes
  · cases makes
  · cases makes
    nofun

theorem lexeme_text_ne_nil (c : Char) (next : List Char) : (lexeme c next).text ≠ [] := by
  unfold lexeme
  repeat' split
  all_goals simp

/-! ### All tokens of a text -/

/-- The tokens of a text are pieces of it, one after the other, and the end of input after
    its last byte. -/
theorem scanned_pieces (file : String) (offset : Nat) (text : List Char) :
    ∃ tokens, scanFrom file offset text = tokens ++ [.endAt file (offset + byteLength text)] ∧
      (∀ t ∈ tokens, t.PieceOf file offset text) ∧ tokens.Pairwise Token.Before := by
  fun_induction scanFrom file offset text with
  | case1 offset => exact ⟨[], rfl, nofun, .nil⟩
  | case2 offset c next piece stop kind makes token ih =>
    obtain ⟨tokens, eq, pieces, ordered⟩ := ih
    have split : piece.text ++ piece.rest = c :: next := lexeme_text_append c next
    have text_eq : token.text.toList = piece.text := String.toList_ofList
    have here : token.PieceOf file offset (c :: next) := by
      refine ⟨kind_ne_eof_of_lexeme makes, ?_, [], piece.rest, ?_, ?_⟩
      · simpa [token] using lexeme_text_ne_nil c next
      · rw [text_eq, split, List.nil_append]
      · rw [text_eq]
        rfl
    refine ⟨token :: tokens, ?_, ?_, ?_⟩
    · rw [eq, ← split, byteLength_append, ← Nat.add_assoc]
      rfl
    · intro t member
      rcases List.mem_cons.1 member with rfl | later
      · exact here
      · rw [← split]
        exact (pieces t later).later
    · refine List.pairwise_cons.2 ⟨?_, ordered⟩
      intro t member
      exact (pieces t member).start_ge
  | case3 offset c next piece stop makes ih =>
    obtain ⟨tokens, eq, pieces, ordered⟩ := ih
    have split : piece.text ++ piece.rest = c :: next := lexeme_text_append c next
    refine ⟨tokens, ?_, ?_, ordered⟩
    · rw [eq, ← split, byteLength_append, ← Nat.add_assoc]
    · intro t member
      rw [← split]
      exact (pieces t member).later

theorem Cursor.ofTokens_concat (file : String) (ts : List Token) {t : Token}
    (last : t.kind = .eof) : ofTokens file (ts ++ [t]) = ⟨ts, t, last⟩ := by
  simp [ofTokens, last]

/-- The cursor of a source stands before its pieces and closes with the end of input. -/
theorem Cursor.ofSource_eq {source : String} {tokens : List Token} {offset : Nat}
    (eq : tokenize source file = tokens ++ [.endAt file offset]) :
    Cursor.ofSource source file = ⟨tokens, .endAt file offset, rfl⟩ := by
  rw [ofSource, eq, ofTokens_concat file tokens rfl]

end Reckon
