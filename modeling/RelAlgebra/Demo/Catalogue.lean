/-
The demos: a few queries over students, the courses they are enrolled in,
and the list of courses.
-/
import RelAlgebra.Demo.Exhibit

namespace RelAlgebra

/-- The demos that can be asked for. -/
inductive Demo where
  /-- Projection, selection, renaming and ordering over one relation. -/
  | students
  /-- Natural, theta and semi joins. -/
  | joins
  | division
  /-- Every demo in turn. -/
  | all
  deriving DecidableEq, Repr

namespace Demo

-- =========================================================== relations

/-- Students with an optional hobby. -/
def studentsTable : Construction Empty :=
  .ofRows
    [⟨"id", .required .integer⟩, ⟨"name", .required .string⟩,
      ⟨"age", .required .integer⟩, ⟨"hobby", .optional .string⟩]
    [[.integer 1, .string "Alice", .integer 21, .null],
      [.integer 2, .string "Bob", .integer 24, .string "cycling"],
      [.integer 3, .string "Carol", .integer 19, .null]]

/-- Who takes which course. -/
def enrollmentsTable : Construction Empty :=
  .ofRows
    [⟨"id", .required .integer⟩, ⟨"course", .required .string⟩]
    [[.integer 1, .string "math"], [.integer 1, .string "art"],
      [.integer 2, .string "math"], [.integer 3, .string "art"]]

/-- All courses. -/
def coursesTable : Construction Empty :=
  .ofRows [⟨"course", .required .string⟩] [[.string "math"], [.string "art"]]

-- ============================================================= queries

def allStudents : Query String := .relation "students"

def allEnrollments : Query String := .relation "enrollments"

def allCourses : Query String := .relation "courses"

/-- `age > 20` -/
def adults : Predicate :=
  .comparison .gt (.member (.attribute "age")) (.member (.literal (.integer 20)))

/-- `(age + 1) >= 22` -/
def nextYear : Predicate :=
  .comparison .ge
    (.numeric (.arithmetic .add (.member (.attribute "age"))
      (.member (.literal (.integer 1)))))
    (.member (.literal (.integer 22)))

/-- `course == name` -/
def courseIs (name : String) : Predicate :=
  .comparison .eq (.member (.attribute "course"))
    (.member (.literal (.string name)))

/-- Operators on one relation, and a query that fails. -/
def studentExhibits : List Exhibit := [
  .rows "students" allStudents,
  .rows "π(id, name)" (.unary (.project ["id", "name"]) allStudents),
  .rows ("σ(" ++ adults.render ++ ")") (.unary (.select adults) allStudents),
  .rows "ρ(identifier ← id)" (.unary (.rename "identifier" "id") allStudents),
  .rows "τ(age desc)" (.unary (.orderBy [⟨"age", .descending⟩]) allStudents),
  .rows ("σ(" ++ nextYear.render ++ ")") (.unary (.select nextYear) allStudents),
  .failure "π(salary)" (.unary (.project ["salary"]) allStudents)]

/-- Joins of students with enrollments. -/
def joinExhibits : List Exhibit :=
  let art := courseIs "art"
  let math := courseIs "math"
  let selected : Query String := .relation "math enrollments"
  [.rows "students ⋈ enrollments"
      (.binary (.basic .naturalJoin) allStudents allEnrollments),
    .rows ("students ⋈[" ++ art.render ++ "] enrollments")
      (.binary (.basic (.thetaJoin art)) allStudents allEnrollments),
    .define "math enrollments" (.unary (.select math) allEnrollments),
    .rows ("students ⋉ σ(" ++ math.render ++ ") enrollments")
      (.binary (.semiJoin .left) allStudents selected),
    .rows ("students ▷ σ(" ++ math.render ++ ") enrollments")
      (.binary (.semiJoin .anti) allStudents selected)]

/-- Who takes every course. -/
def divisionExhibits : List Exhibit := [
  .rows "courses" allCourses,
  .rows "enrollments ÷ courses" (.binary .divide allEnrollments allCourses)]

/-- What a demo shows. -/
def exhibits : Demo → List Exhibit
  | .students => studentExhibits
  | .joins => joinExhibits
  | .division => divisionExhibits
  | .all => studentExhibits ++ joinExhibits ++ divisionExhibits

/-- The session that the demos start from. -/
def session : Session :=
  let tables := [("students", studentsTable),
    ("enrollments", enrollmentsTable), ("courses", coursesTable)]
  tables.foldl
    (fun s (name, table) => (s.define name (table.map Empty.elim)).state)
    Session.empty

/-- Runs a demo: its text, and why it stopped if it did. -/
def run (demo : Demo) : Ended Session (String × Option DemoError) :=
  Exhibit.displayAll demo.exhibits session

end Demo

end RelAlgebra
