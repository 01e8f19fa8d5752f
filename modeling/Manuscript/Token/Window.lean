import Manuscript.Token.Scanner

/-!
# Token windows

A window shows the next tokens of a source and reads the source only as far as it is asked to.
Tokens that were read and not yet handed out wait in a queue. A window can also be made of tokens
alone; it then reads nothing.

* `fill` reads one character after the other until enough tokens wait or the source is at its end.
* `peek` shows a token ahead and `next` hands one out, both reading as far as they need to.
* `dequeue` and `lookahead` are about the waiting tokens only and never read.
-/

namespace Manuscript

/-- Misuse of the waiting tokens. -/
inductive QueueError where
  | empty
  | outOfRange (index available : Nat)
deriving DecidableEq

/-- The misuse in words. -/
def QueueError.message : QueueError → String
  | empty => "the token queue is empty"
  | outOfRange index available =>
      s!"lookahead {index} is out of range ({available} tokens available)"

/-- A view of the next tokens of a source. -/
structure TokenWindow where
  /-- The part of the source that was not read yet. -/
  rest : List Char
  scanner : Scanner
  /-- Tokens that were read and not handed out, oldest first. -/
  queue : List Token
  /-- The end of the source was read. -/
  exhausted : Bool

namespace TokenWindow

/-- A window at the start of a source. -/
def ofSource (source : String) : TokenWindow := ⟨source.toList, {}, [], false⟩

/-- A window over tokens that are already there. -/
def ofTokens (tokens : List Token) : TokenWindow := ⟨[], {}, tokens, true⟩

/-! ## The waiting tokens -/

/-- Let one more token wait. -/
def enqueue (w : TokenWindow) (t : Token) : TokenWindow := { w with queue := w.queue ++ [t] }

/-- Hand out the oldest waiting token. -/
def dequeue (w : TokenWindow) : Except QueueError Token × TokenWindow :=
  match w.queue with
  | [] => (.error .empty, w)
  | t :: rest => (.ok t, { w with queue := rest })

/-- How many tokens wait. -/
def length (w : TokenWindow) : Nat := w.queue.length

/-- The waiting token that stands `index` places behind the oldest. -/
def lookahead (w : TokenWindow) (index : Nat) : Except QueueError Token :=
  match w.queue[index]? with
  | some t => .ok t
  | none => .error (.outOfRange index w.queue.length)

/-! ## Reading on -/

/-- Read on from `rest` until `wanted` tokens wait or the end was read. After an error the window
stands behind the character that caused it. -/
def fillFrom (wanted : Nat) (scanner : Scanner) (queue : List Token) :
    List Char → Option LexicalError × TokenWindow
  | [] =>
    if wanted ≤ queue.length then (none, ⟨[], scanner, queue, false⟩)
    else
      match scanner.finish with
      | (scanner, some e) => (some e, ⟨[], scanner, queue, false⟩)
      | (scanner, none) => (none, ⟨[], scanner.drained, queue ++ scanner.ready, true⟩)
  | c :: rest =>
    if wanted ≤ queue.length then (none, ⟨c :: rest, scanner, queue, false⟩)
    else
      match scanner.feed c with
      | (scanner, some e) => (some e, ⟨rest, scanner, queue, false⟩)
      | (scanner, none) => fillFrom wanted scanner.drained (queue ++ scanner.ready) rest

/-- Read until `wanted` tokens wait or the end was read. -/
def fill (w : TokenWindow) (wanted : Nat) : Option LexicalError × TokenWindow :=
  if w.exhausted then (none, w) else fillFrom wanted w.scanner w.queue w.rest

/-- Show the token `offset` places ahead; there is none past the end. -/
def peek (w : TokenWindow) (offset : Nat) :
    Except LexicalError (Option Token) × TokenWindow :=
  match w.fill (offset + 1) with
  | (some e, w) => (.error e, w)
  | (none, w) => (.ok w.queue[offset]?, w)

/-- Hand out the next token; there is none at the end. -/
def next (w : TokenWindow) : Except LexicalError (Option Token) × TokenWindow :=
  match w.fill 1 with
  | (some e, w) => (.error e, w)
  | (none, w) =>
    match w.queue with
    | [] => (.ok none, w)
    | t :: rest => (.ok (some t), { w with queue := rest })

/-- No more tokens than this are left: a character completes two at most, and so does the end. -/
def bound (w : TokenWindow) : Nat :=
  w.queue.length + w.scanner.ready.length + 2 * w.rest.length + 2

end TokenWindow

end Manuscript
