import Manuscript.Token.Window
import Manuscript.Grammar.SyntaxError

/-!
# Productions

A production of the grammar is a tree of requests: it asks to see a token ahead, takes the next one,
repeats a body while the next token admits it, or fails. What it does next depends only on the
answers, so a production cannot tell how the tokens come about.

`Production.run` answers the requests from a `TokenWindow`. Everything that holds of all productions
can be shown by one induction over the tree, whatever the grammar says.
-/

namespace Manuscript

/-- A tree of requests for tokens that ends in a value or in a syntax error. -/
inductive Production : Type → Type 1 where
  /-- Succeed with a value. -/
  | done {α : Type} (value : α) : Production α
  /-- Fail. -/
  | fail {α : Type} (error : SyntaxError) : Production α
  /-- See the token `offset` places ahead, if there is one. -/
  | peek {α : Type} (offset : Nat) (next : Option Token → Production α) : Production α
  /-- Take the next token. -/
  | take {α : Type} (next : Production α) : Production α
  /-- Learn the position of the token taken last. -/
  | lastPosition {α : Type} (next : Position → Production α) : Production α
  /-- Learn whether the token taken last ended a line, which also holds before the first one. -/
  | atLineStart {α : Type} (next : Bool → Production α) : Production α
  /-- While the next token is admitted, take it and let the body work on it. -/
  | loop {α σ : Type} (state : σ) (admits : σ → Token → Bool) (body : σ → Token → Production σ)
      (next : σ → Production α) : Production α
  /-- Go on whether or not the inner production fails. -/
  | attempt {α β : Type} (inner : Production β) (next : Except SyntaxError β → Production α) :
      Production α

namespace Production

/-- First one production, then another that depends on its value. -/
def bind {α β : Type} : Production α → (α → Production β) → Production β
  | done value, f => f value
  | fail error, _ => fail error
  | peek offset next, f => peek offset fun t => (next t).bind f
  | take next, f => take (next.bind f)
  | lastPosition next, f => lastPosition fun p => (next p).bind f
  | atLineStart next, f => atLineStart fun b => (next b).bind f
  | loop state admits body next, f => loop state admits body fun s => (next s).bind f
  | attempt inner next, f => attempt inner fun r => (next r).bind f

instance : Monad Production where
  pure := done
  bind := bind

/-! ## Running a production -/

/-- Why a run stops early. A syntax error is the section's own; after a lexical error there are no
more tokens for any section. -/
inductive Stop where
  | byGrammar (error : SyntaxError)
  | byLexer (error : LexicalError)
deriving DecidableEq

/-- What a run reads from: the window, and what is known of the token taken last. -/
structure Cursor where
  window : TokenWindow
  atLineStart : Bool := true
  lastPosition : Position := ⟨1, 1⟩

namespace Cursor

/-- See the token `offset` places ahead. -/
def peek (c : Cursor) (offset : Nat) : Except Stop (Option Token) × Cursor :=
  match c.window.peek offset with
  | (.ok t, window) => (.ok t, { c with window })
  | (.error e, window) => (.error (.byLexer e), { c with window })

/-- Take the next token, if there is one. -/
def take (c : Cursor) : Except Stop Unit × Cursor :=
  match c.window.next with
  | (.ok (some t), window) => (.ok (), ⟨window, t.isLineEnd, t.position⟩)
  | (.ok none, window) => (.ok (), { c with window })
  | (.error e, window) => (.error (.byLexer e), { c with window })

end Cursor

/-- Run a body on token after token while the next one is admitted. The body is run at most `fuel`
times; a window has no more tokens than its bound, so that much fuel is never used up. -/
def iterate {σ : Type} (admits : σ → Token → Bool)
    (body : σ → Token → Cursor → Except Stop σ × Cursor) :
    Nat → σ → Cursor → Except Stop σ × Cursor
  | 0, state, c => (.ok state, c)
  | fuel + 1, state, c =>
    match c.peek 0 with
    | (.error e, c) => (.error e, c)
    | (.ok none, c) => (.ok state, c)
    | (.ok (some t), c) =>
      if admits state t then
        match c.take with
        | (.error e, c) => (.error e, c)
        | (.ok (), c) =>
          match body state t c with
          | (.error e, c) => (.error e, c)
          | (.ok state, c) => iterate admits body fuel state c
      else (.ok state, c)

/-- Answer the requests of a production from a cursor. -/
def run {α : Type} : Production α → Cursor → Except Stop α × Cursor
  | done value, c => (.ok value, c)
  | fail error, c => (.error (.byGrammar error), c)
  | peek offset next, c =>
    match c.peek offset with
    | (.error e, c) => (.error e, c)
    | (.ok t, c) => (next t).run c
  | take next, c =>
    match c.take with
    | (.error e, c) => (.error e, c)
    | (.ok (), c) => next.run c
  | lastPosition next, c => (next c.lastPosition).run c
  | atLineStart next, c => (next c.atLineStart).run c
  | loop state admits body next, c =>
    match iterate admits (fun s t c => (body s t).run c) (c.window.bound + 1) state c with
    | (.error e, c) => (.error e, c)
    | (.ok s, c) => (next s).run c
  | attempt inner next, c =>
    match inner.run c with
    | (.error (.byLexer e), c) => (.error (.byLexer e), c)
    | (.error (.byGrammar e), c) => (next (.error e)).run c
    | (.ok value, c) => (next (.ok value)).run c

/-! ## Small productions -/

/-- The token `offset` places ahead. -/
def peekAt (offset : Nat) : Production (Option Token) := peek offset done

/-- Take the next token. -/
def skip : Production Unit := take (done ())

/-- While the next token is admitted, take it and let the body work on it. -/
def repeatWhile {σ : Type} (state : σ) (admits : σ → Token → Bool)
    (body : σ → Token → Production σ) : Production σ := loop state admits body done

/-- The outcome of a production that may fail. -/
def outcome {α : Type} (inner : Production α) : Production (Except SyntaxError α) :=
  attempt inner done

/-- Fail because the next token, or the end of the source, is not what was expected. -/
def refuse {α : Type} (expected : String) : Production α :=
  peek 0 fun
    | some t => fail (.unexpected expected t)
    | none => lastPosition fun p => fail (.endOfInput expected p)

end Production

end Manuscript
