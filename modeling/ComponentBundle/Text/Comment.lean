/-!
# Comments between signs

* `commentTail_append` : cutting a comment off loses nothing.
-/

namespace ComponentBundle.Text

/-- A comment's text after its `/*`: up to and with the first `*/`, and what follows. A comment
that is not closed reaches to the end. -/
def commentTail : List Char → List Char × List Char
  | [] => ([], [])
  | '*' :: '/' :: rest => (['*', '/'], rest)
  | c :: rest =>
    let more := commentTail rest
    (c :: more.1, more.2)

theorem commentTail_append (s : List Char) : (commentTail s).1 ++ (commentTail s).2 = s := by
  fun_induction commentTail s with
  | case1 => rfl
  | case2 => rfl
  | case3 c rest _ more ih => simp [more, ih]

end ComponentBundle.Text
