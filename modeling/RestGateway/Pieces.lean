/-!
# Cutting at separators

Paths, query strings and key names are cut at a separator. `pieces` cuts, and `joined` puts pieces
together.
-/

namespace RestGateway

variable {α : Type} [BEq α]

/-- The pieces between the elements equal to `separator`; one piece more than there are such
elements. -/
def pieces (separator : α) (s : List α) : List (List α) :=
  s.foldr (fun a cut =>
    if a == separator then [] :: cut
    else match cut with
      | [] => [[a]]
      | piece :: rest => (a :: piece) :: rest) [[]]

/-- Pieces written one after the other with `separator` between two of them. -/
def joined (separator : α) (ps : List (List α)) : List α := List.intercalate [separator] ps

@[simp] theorem pieces_nil (separator : α) : pieces separator [] = [[]] := rfl

theorem pieces_cons (separator a : α) (s : List α) :
    pieces separator (a :: s) =
      if a == separator then [] :: pieces separator s
      else match pieces separator s with
        | [] => [[a]]
        | piece :: rest => (a :: piece) :: rest := rfl

theorem pieces_ne_nil (separator : α) (s : List α) : pieces separator s ≠ [] := by
  cases s with
  | nil => simp
  | cons a s =>
    rw [pieces_cons]
    split
    · simp
    · split <;> simp

end RestGateway
