import ExprTyping.Proofs.LineByLine
import Mathlib.Data.Stream.Init

/-!
# Looking ahead in a stream

Reading on and on gives an endless stream: the items of the source in order, and then its end again
and again. A lookahead behaves like this stream, however reading and looking take turns. Whatever is
kept in it has only been moved from the source to the front, and it keeps one token at most.

- `Lookahead.stream`: what reading alone gives, and `Lookahead.stream_of_cursor`: the items and the
  end;
- `Request.onStream`: what reading and looking do to a plain stream;
- `Lookahead.serve_stream` and `Lookahead.length_peeked_serve`: one request;
- `Lookahead.serveAll_stream`: any sequence of them.
-/

namespace ExprTyping

/-! ## The stream of readings -/

namespace Lookahead

/-- The endless stream of what reading alone gives. -/
def stream (l : Lookahead) : Stream' Reading :=
  Stream'.corec (fun l => l.next.1) (fun l => l.next.2) l

theorem head_stream (l : Lookahead) : l.stream.head = l.next.1 := rfl

theorem stream_eq (l : Lookahead) : l.stream = .cons l.next.1 l.next.2.stream :=
  Stream'.corec_eq _ _ l

theorem tail_stream (l : Lookahead) : l.stream.tail = l.next.2.stream := by
  rw [stream_eq, Stream'.tail_cons]

end Lookahead

/-- Where nothing is left to read, nothing is left afterwards. -/
theorem Cursor.scan_of_scan_none {c behind : Cursor} (h : c.scan = (none, behind)) :
    behind.scan = (none, behind) := by
  rcases hskip : c.skipBlanks with ⟨_ | ⟨g, t⟩, p⟩
  · rw [scan_of_skipBlanks_nil hskip] at h
    cases h
    rfl
  · rw [scan_of_skipBlanks_cons hskip] at h
    cases h

namespace Lookahead

/-- The end of the source is not read away. -/
theorem next_of_finished {l behind : Lookahead} {p : Pos} (h : l.next = (.finished p, behind)) :
    behind.next = (.finished p, behind) := by
  obtain ⟨c, _ | ⟨t, ts⟩⟩ := l
  · rcases hscan : c.scan with ⟨_ | i, d⟩
    · rw [next_of_none hscan] at h
      cases h
      exact next_of_none (Cursor.scan_of_scan_none hscan)
    · rw [next_of_scan hscan] at h
      cases h
  · cases h

theorem stream_of_finished {l behind : Lookahead} {p : Pos} (h : l.next = (.finished p, behind)) :
    l.stream = Stream'.const (.finished p) := by
  apply Stream'.ext
  intro n
  induction n generalizing l with
  | zero =>
    show l.next.1 = _
    rw [h]
    rfl
  | succ n ih =>
    have hbehind := ih (next_of_finished h)
    show l.stream.tail.get n = _
    rw [tail_stream, h]
    exact hbehind

/-- Reading alone gives the items that are left, and then for ever the end, at the position behind the
whole source. -/
theorem stream_of_cursor {source : Text} {c : Cursor} (h : c.IsIn source) :
    stream ⟨c, []⟩ =
      c.scanAll.1.map .item ++ₛ Stream'.const (.finished (Pos.start.after source)) := by
  fun_induction Cursor.scanAll c with
  | case1 c behind hscan =>
    rw [← h.pos_of_scan_none hscan]
    exact stream_of_finished (next_of_none hscan)
  | case2 c item behind hscan items final hfinal ih =>
    have hbehind := ih (h.scan hscan).2
    rw [hfinal] at hbehind
    rw [stream_eq, next_of_scan hscan]
    exact congrArg (Stream'.cons (.item item)) hbehind

end Lookahead

/-! ## Requests -/

/-- What can be asked of a lookahead. -/
inductive Request where
  /-- To take the next item off. -/
  | read
  /-- To look at the next item. -/
  | look
  deriving DecidableEq, Repr

/-- What a request gets. -/
inductive Reply where
  /-- What a request to read gets. -/
  | read (r : Reading)
  /-- What a request to look gets. -/
  | look (s : Sight)
  deriving DecidableEq, Repr

/-- What a request gets from a plain stream, and what it leaves of it. Reading takes the head off.
Looking leaves a token where it is and takes a fault off. At the end it sees the token that stands
for the end, and leaves the stream as it is. -/
def Request.onStream : Request → Stream' Reading → Reply × Stream' Reading
  | .read, s => (.read s.head, s.tail)
  | .look, s =>
    match s.head with
    | .item (.token t) => (.look (.token t), s)
    | .item (.fault f) => (.look (.fault f), s.tail)
    | .finished p => (.look (.endToken p), s)

/-- What requests get from a plain stream one after the other, and what they leave of it. -/
def Request.allOnStream : List Request → Stream' Reading → List Reply × Stream' Reading
  | [], s => ([], s)
  | r :: rs, s =>
    let (reply, rest) := r.onStream s
    let (replies, final) := allOnStream rs rest
    (reply :: replies, final)

namespace Lookahead

/-- What a request gets from a lookahead, and what it leaves. -/
def serve (l : Lookahead) : Request → Reply × Lookahead
  | .read => (.read l.next.1, l.next.2)
  | .look => (.look l.peek.1, l.peek.2)

/-- What requests get one after the other, and what they leave. -/
def serveAll (l : Lookahead) : List Request → List Reply × Lookahead
  | [] => ([], l)
  | r :: rs =>
    let (reply, behind) := l.serve r
    let (replies, final) := behind.serveAll rs
    (reply :: replies, final)

/-! ## One request -/

section Peek

variable {l behind : Lookahead}

/-- Looking at a token is reading it and putting it back, whether it had been kept or not. -/
theorem peek_of_token {t : Token} (h : l.next = (.item (.token t), behind)) :
    l.peek = (.token t, behind.back t) := by
  obtain ⟨c, _ | ⟨u, us⟩⟩ := l
  · simp only [peek, h]
  · cases h
    rfl

/-- Where a fault is next, no token is kept, and looking consumes the fault. -/
theorem peek_of_fault {f : ScanFault} (h : l.next = (.item (.fault f), behind)) :
    l.peek = (.fault f, behind) := by
  obtain ⟨c, _ | ⟨u, us⟩⟩ := l
  · simp only [peek, h]
  · cases h

/-- At the end no token is kept, and looking sees the token that stands for the end. -/
theorem peek_of_finished {p : Pos} (h : l.next = (.finished p, behind)) :
    l.peek = (.endToken p, behind) := by
  obtain ⟨c, _ | ⟨u, us⟩⟩ := l
  · simp only [peek, h]
  · cases h

end Peek

/-- One request gets from a lookahead what it gets from the stream, and leaves a lookahead of what it
leaves of the stream. -/
theorem serve_stream (l : Lookahead) (r : Request) :
    (l.serve r).map id stream = r.onStream l.stream := by
  cases r with
  | read => exact Prod.ext (congrArg Reply.read (head_stream l).symm) (tail_stream l).symm
  | look =>
    rcases hnext : l.next with ⟨(t | f) | p, behind⟩
    · -- The token is back in front of what is behind it.
      have hstream : l.stream = .cons (.item (.token t)) behind.stream := by
        rw [stream_eq, hnext]
      rw [serve, peek_of_token hnext, Request.onStream, head_stream, hnext, hstream]
      exact Prod.ext rfl (stream_eq (behind.back t))
    · rw [serve, peek_of_fault hnext, Request.onStream, head_stream, tail_stream, hnext]
      rfl
    · -- What is behind the end is the end.
      have hstream : behind.stream = l.stream := by
        rw [stream_of_finished hnext, stream_of_finished (next_of_finished hnext)]
      rw [serve, peek_of_finished hnext, Request.onStream, head_stream, hnext]
      exact Prod.ext rfl hstream

theorem length_peeked_next (l : Lookahead) : l.next.2.peeked.length = l.peeked.length - 1 := by
  obtain ⟨c, _ | ⟨t, ts⟩⟩ := l
  · rcases hscan : c.scan with ⟨_ | i, d⟩
    · rw [next_of_none hscan]
      rfl
    · rw [next_of_scan hscan]
      rfl
  · rfl

/-- A token is kept only where none was. -/
theorem length_peeked_serve {l : Lookahead} (h : l.peeked.length ≤ 1) (r : Request) :
    (l.serve r).2.peeked.length ≤ 1 := by
  have hnext := length_peeked_next l
  cases r with
  | read =>
    show l.next.2.peeked.length ≤ 1
    omega
  | look =>
    show l.peek.2.peeked.length ≤ 1
    rcases hread : l.next with ⟨(t | f) | p, behind⟩
    · rw [hread] at hnext
      rw [peek_of_token hread]
      change behind.peeked.length = _ at hnext
      show behind.peeked.length + 1 ≤ 1
      omega
    · rw [hread] at hnext
      rw [peek_of_fault hread]
      change behind.peeked.length = _ at hnext
      show behind.peeked.length ≤ 1
      omega
    · rw [hread] at hnext
      rw [peek_of_finished hread]
      change behind.peeked.length = _ at hnext
      show behind.peeked.length ≤ 1
      omega

/-! ## All requests -/

theorem serveAll_eq (l : Lookahead) (rs : List Request) :
    (l.serveAll rs).map id stream = Request.allOnStream rs l.stream := by
  induction rs generalizing l with
  | nil => rfl
  | cons r rs ih =>
    have hstep := serve_stream l r
    have hrest := ih (l.serve r).2
    rw [Request.allOnStream, ← hstep]
    dsimp only [Prod.map]
    rw [← hrest]
    rfl

theorem length_peeked_serveAll {l : Lookahead} (h : l.peeked.length ≤ 1) (rs : List Request) :
    (l.serveAll rs).2.peeked.length ≤ 1 := by
  induction rs generalizing l with
  | nil => exact h
  | cons r rs ih => exact ih (length_peeked_serve h r)

/-- Look-ahead refines the plain stream of what reading alone gives: the items of the source, faults
included, and then its end for ever. Whatever the bytes of the source are and however reading and
looking take turns, reading gets the head of what is left of the stream and takes it off. Looking
gets the head and leaves it there if it is a token, gets the head and takes it off if it is a fault,
and at the end gets the token that stands for the end and takes nothing off. Never is more than one
token kept. -/
theorem serveAll_stream (source : List UInt8) (requests : List Request) :
    let text := Text.ofBytes source
    let l := ofText text
    l.stream = text.items.map .item ++ₛ Stream'.const (.finished (Pos.start.after text)) ∧
      (l.serveAll requests).1 = (Request.allOnStream requests l.stream).1 ∧
      (l.serveAll requests).2.stream = (Request.allOnStream requests l.stream).2 ∧
      (l.serveAll requests).2.peeked.length ≤ 1 := by
  intro text l
  have hempty : l.peeked.length ≤ 1 := Nat.zero_le 1
  have hrun := serveAll_eq l requests
  exact ⟨stream_of_cursor (Cursor.isIn_ofText text), congrArg Prod.fst hrun,
    congrArg Prod.snd hrun, length_peeked_serveAll hempty requests⟩

end Lookahead

end ExprTyping
