namespace Spool

-- Two paths name the same place in the same words when their parts agree, however many slashes and dots
-- stand between them.
structure Path where
  text : String
deriving DecidableEq, Inhabited

namespace Path

inductive Part where
  | root
  | current
  | parent
  | name (s : String)
deriving DecidableEq

-- The stretches between slashes, empty ones included: one more than there are slashes.
def stretches : List Char → List (List Char)
  | [] => [[]]
  | c :: cs =>
    match stretches cs with
    | [] => [[c]]
    | s :: ss => if c = '/' then [] :: s :: ss else (c :: s) :: ss

-- The names along the path as they are written, single and double dots among them.
def steps (p : Path) : List String :=
  ((stretches p.text.toList).filter (· ≠ [])).map String.ofList

def isAbsolute (p : Path) : Bool :=
  p.text.toList.head? = some '/'

def endsInSlash (p : Path) : Bool :=
  p.text.toList.getLast? = some '/'

def partOf (step : String) : Part :=
  if step = "." then .current else if step = ".." then .parent else .name step

-- A single dot counts only at the start of a relative path.
def parts (p : Path) : List Part :=
  let all := p.steps.map partOf
  if p.isAbsolute then .root :: all.filter (· ≠ .current)
  else match all with
    | [] => []
    | first :: rest => first :: rest.filter (· ≠ .current)

-- The name of the entry that the path ends in, if it ends in a name.
def fileName? (p : Path) : Option String :=
  match p.parts.getLast? with
  | some (.name s) => some s
  | _ => none

-- An empty right side leaves a slash at the end.
def join (p : Path) (right : String) : Path :=
  if (Path.mk right).isAbsolute then ⟨right⟩
  else if p.text = "" ∨ p.endsInSlash then ⟨p.text ++ right⟩
  else ⟨p.text ++ "/" ++ right⟩

def sameParts (p q : Path) : Bool :=
  p.parts = q.parts

theorem stretches_ne_nil (cs : List Char) : stretches cs ≠ [] := by
  cases cs with
  | nil => simp [stretches]
  | cons c cs =>
    rw [stretches]
    split
    · simp
    · split <;> simp

-- A slash ends one stretch and starts the next.
theorem stretches_append (left right : List Char) :
    stretches (left ++ '/' :: right) = stretches left ++ stretches right := by
  induction left with
  | nil =>
    cases h : stretches right with
    | nil => exact absurd h (stretches_ne_nil right)
    | cons s ss => simp [stretches, h]
  | cons c left ih =>
    cases h : stretches left with
    | nil => exact absurd h (stretches_ne_nil left)
    | cons s ss =>
      simp only [List.cons_append, stretches, ih, h]
      split <;> simp

-- A text without slashes is one stretch.
theorem stretches_of_no_slash {cs : List Char} (h : '/' ∉ cs) : stretches cs = [cs] := by
  induction cs with
  | nil => rfl
  | cons c cs ih =>
    simp only [List.mem_cons, not_or] at h
    simp [stretches, ih h.2, Ne.symm h.1]

end Path

end Spool
