namespace QueryHooks.Text

def split (separator : Char) : List Char → List (List Char)
  | []      => [[]]
  | c :: cs =>
    if c = separator then [] :: split separator cs
    else
      match split separator cs with
      | []            => [[c]]
      | piece :: rest => (c :: piece) :: rest

theorem split_of_not_mem {cs : List Char} (h : separator ∉ cs) : split separator cs = [cs] := by
  induction cs
  case nil => rfl
  case cons c cs hi =>
    simp only [List.mem_cons, not_or] at h
    simp [split, hi h.2, Ne.symm h.1]

theorem split_append {cs : List Char} (ds : List Char) (h : separator ∉ cs) :
    split separator (cs ++ separator :: ds) = cs :: split separator ds := by
  induction cs
  case nil => simp [split]
  case cons c cs hi =>
    simp only [List.mem_cons, not_or] at h
    simp [split, hi h.2, Ne.symm h.1]

end QueryHooks.Text
