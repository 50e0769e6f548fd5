/-
  Replies — what the answers of a store mean.

  1. **A popped entry** (`Reply.popped`): a blocking pop is answered by nothing or by a pair of key
     and entry, of which the second part is the entry.
  2. **A length** (`Reply.count`): an integer, or whatever can be read as one.

  A store may answer anything; an answer of another form is a failure that says what it was.
-/
import Permits.Failure
import Permits.Number.Numeral
import Permits.Duration

namespace Permits.Reply

open Number Text

/-- The second part of a sequence that is called `container`. -/
def second {α : Type} (container : String) (toValue : α → Value) (items : List α) :
    Except Failure Value :=
  match items[1]? with
  | some item => .ok (toValue item)
  | none => .error (.replyTooShort container)

def byteValue (b : UInt8) : Value := .int b.toNat

/-- The entry in the answer to a blocking pop; `Value.none` when nothing was popped. -/
def popped (reply : Value) : Except Failure Value :=
  if !reply.isTrue then .ok .none
  else match reply with
    | .list items => second "list " id items
    | .tuple items => second "tuple " id items
    | .text s => second "string " (fun c => .text (String.ofList [c])) s.toList
    | .bytes bs => second "" byteValue bs
    | .byteArray bs => second "bytearray " byteValue bs
    | v => .error (.replyType v.qualifiedTypeName)

/-- The integer that characters write; they are told as they are `shown` if they write none. -/
def readCount (cs : List Char) (shown : String) : Except Failure Int :=
  match readInteger cs with
  | .ok n => .ok n
  | .error .malformed => .error (.integerText shown)
  | .error (.tooLong digits) => .error (.integerDigits digits)

/-- The integer that an object is, without its fraction.  What is in order with integers but is no amount
    is no number at all. -/
def countOfObject (o : Object) : Except Failure Int :=
  if o.isOrdered then
    match o.amount?.elim (.error .nan) (·.truncate) with
    | .ok n => .ok n
    | .error reason => .error (.integerUnbounded reason)
  else .error (.integerType o.qualifiedType)

/-- The integer in the answer to a request for a length; a fraction is dropped. -/
def count : Value → Except Failure Int
  | .bool b => .ok (if b then 1 else 0)
  | .int n => .ok n
  | .float x =>
    match x.truncate with
    | .ok n => .ok n
    | .error reason => .error (.integerUnbounded reason)
  | .text s => readCount s.toList (quoted s)
  | .bytes bs | .byteArray bs =>
    readCount (Duration.asciiChars bs) ("b" ++ quotedBytes (bs.take Refusal.shownLimit))
  | .other o => countOfObject o
  | v => .error (.integerType v.qualifiedTypeName)

/-! ## Refused replies -/

theorem isOwn_of_second {α : Type} {container : String} {toValue : α → Value} {items : List α}
    {f : Failure} (h : second container toValue items = .error f) : f.isOwn = true := by
  unfold second at h
  split at h <;> cases h
  rfl

/-- A reply of another form is refused by this library itself. -/
theorem isOwn_of_popped {reply : Value} {f : Failure} (h : popped reply = .error f) :
    f.isOwn = true := by
  unfold popped at h
  split at h
  · cases h
  · split at h
    case h_6 =>
      cases h
      rfl
    all_goals exact isOwn_of_second h

theorem isOwn_of_readCount {cs : List Char} {shown : String} {f : Failure}
    (h : readCount cs shown = .error f) : f.isOwn = true := by
  unfold readCount at h
  split at h <;> cases h <;> rfl

theorem isOwn_of_countOfObject {o : Object} {f : Failure} (h : countOfObject o = .error f) :
    f.isOwn = true := by
  unfold countOfObject at h
  split at h
  · split at h <;> cases h
    rfl
  · cases h
    rfl

theorem isOwn_of_count {reply : Value} {f : Failure} (h : count reply = .error f) :
    f.isOwn = true := by
  cases reply <;> simp only [count] at h
  case text | bytes | byteArray => exact isOwn_of_readCount h
  case other => exact isOwn_of_countOfObject h
  case float =>
    split at h <;> cases h
    rfl
  all_goals
    cases h
  all_goals rfl

end Permits.Reply
