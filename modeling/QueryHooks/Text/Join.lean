namespace QueryHooks.Text

def concat : List String → String
  | []      => ""
  | s :: ss => s ++ concat ss

def join (separator : String) : List String → String
  | []           => ""
  | [s]          => s
  | s :: t :: ss => s ++ separator ++ join separator (t :: ss)

theorem concat_append (ss ts : List String) : concat (ss ++ ts) = concat ss ++ concat ts := by
  induction ss
  case nil => simp [concat]
  case cons s ss hi => simp [concat, hi, String.append_assoc]

@[simp]
theorem join_nil : join sep [] = "" :=
  rfl

@[simp]
theorem join_singleton : join sep [s] = s :=
  rfl

theorem join_cons_cons : join sep (s :: t :: ss) = s ++ sep ++ join sep (t :: ss) :=
  rfl

theorem join_cons (h : ss ≠ []) : join sep (s :: ss) = s ++ sep ++ join sep ss := by
  cases ss
  case nil  => contradiction
  case cons => rfl

end QueryHooks.Text
