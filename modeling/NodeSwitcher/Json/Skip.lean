import NodeSwitcher.Json.Word
import NodeSwitcher.Json.Number
import NodeSwitcher.Json.Strings
/-!
# Skipping a JSON value

Members that a record does not know are read only to be skipped: their value must
be well formed, but nothing of it is kept, and it may nest to any depth. The
checker keeps the arrays and objects it is inside as a stack, innermost first,
so that its depth costs no recursion of its own.

It reports the first fault it meets: a value missing where one belongs, a
member name that is not a string, a missing colon, or an array or object that
goes on with something other than a comma or its own closing bracket.
-/

namespace NodeSwitcher.Json

/-- What the checker of a skipped value expects next. -/
inductive SkipMode where
  /-- a value -/
  | value
  /-- a member name, a colon, then a value -/
  | member
  /-- just inside an opening bracket: a closing bracket or the first element -/
  | opened
  /-- after an element: a comma or a closing bracket -/
  | after

/-- Orders the modes that read nothing before moving on to another one. -/
def SkipMode.rank : SkipMode → Nat
  | .opened => 1
  | _ => 0

namespace Cursor

/-- Checks a value that is neither an array nor an object, whose first character
`ch` is ahead: `before` is the cursor before it and `after` after it. -/
def skipScalar {c : Cursor} (ch : Char) (before : Past c) (after : After c) : Result (After c) :=
  let lift (r : Result (Past after.1)) : Result (After c) := r.map after.trans
  if ch = 'n' then lift (after.1.word ['u', 'l', 'l'])
  else if ch = 't' then lift (after.1.word ['r', 'u', 'e'])
  else if ch = 'f' then lift (after.1.word ['a', 'l', 's', 'e'])
  else if ch = '-' then lift ((after.1.skipNumber).map After.past)
  else if isDigit ch then (before.1.skipNumber).map before.transAfter
  else if ch = '"' then lift ((after.1.skipString).map After.past)
  else fail .expectedValue before.1.peekPos

/-- The error for the end of the text inside an object (`true`) or an array. -/
def eofIn (inObject : Bool) : Problem :=
  if inObject then .eofInObject else .eofInList

/-- Checks the rest of a skipped value; `stack` holds the open containers, innermost
first, `true` for an object. -/
def skipFrom (mode : SkipMode) (stack : List Bool) (c : Cursor) : Result (Past c) :=
  match mode, stack with
  | .value, stack =>
    match c.ahead with
    | .stop q => fail .eofInValue q
    | .char ch before after =>
      have := after.2
      if ch = '[' ∨ ch = '{' then
        (skipFrom .opened (decide (ch = '{') :: stack) after.1).map after.past.trans
      else
        match skipScalar ch before after with
        | .error e => .error e
        | .ok d =>
          have := d.2
          (skipFrom .after stack d.1).map d.past.trans
  | .member, stack =>
    match c.ahead with
    | .stop q => fail .eofInObject q
    | .char ch before after =>
      if ch = '"' then
        match after.1.skipString with
        | .error e => .error e
        | .ok d =>
          match d.1.ahead with
          | .stop q => fail .eofInObject q
          | .char ch' before' after' =>
            if ch' = ':' then
              have := (after.trans (d.past.trans after'.past)).2
              (skipFrom .value stack (after.trans (d.past.trans after'.past)).1).map
                (after.trans (d.past.trans after'.past)).past.trans
            else fail .expectedColon before'.1.peekPos
      else fail .keyNotString before.1.peekPos
  | .opened, [] => .ok c.here
  | .opened, inObject :: up =>
    match c.ahead with
    | .stop q => fail (eofIn inObject) q
    | .char ch before after =>
      have := after.2
      have := before.2
      if ch = (if inObject then '}' else ']') then
        (skipFrom .after up after.1).map after.past.trans
      else if inObject then (skipFrom .member (inObject :: up) before.1).map before.trans
      else (skipFrom .value (inObject :: up) before.1).map before.trans
  | .after, [] => .ok c.here
  | .after, inObject :: up =>
    match c.ahead with
    | .stop q => fail (eofIn inObject) q
    | .char ch before after =>
      have := after.2
      if ch = ',' then
        if inObject then (skipFrom .member (inObject :: up) after.1).map after.past.trans
        else (skipFrom .value (inObject :: up) after.1).map after.past.trans
      else if ch = (if inObject then '}' else ']') then
        (skipFrom .after up after.1).map after.past.trans
      else
        fail (if inObject then .expectedObjectCommaOrEnd else .expectedListCommaOrEnd)
          before.1.peekPos
termination_by 2 * c.rest.length + mode.rank
decreasing_by all_goals (simp only [SkipMode.rank]; omega)

/-- Checks a value that is skipped, and gives the cursor after it. -/
def skipValue (c : Cursor) : Result (Past c) :=
  skipFrom .value [] c

end Cursor

end NodeSwitcher.Json
