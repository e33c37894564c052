import Script.Evaluation

/-!
# The names in a tree

Which variables a tree reads, which it assigns, which functions it calls and
which it defines. The body of a definition does not count among the first two
and the last, since it is not run where it stands. Its calls do count, since
the function can be called later.
-/

set_option autoImplicit false

namespace Script

mutual

def Expr.reads : Expr → List String
  | .int _ => []
  | .bool _ => []
  | .string _ => []
  | .null => []
  | .variable x => [x]
  | .binary _ left right => left.reads ++ right.reads
  | .call _ arguments => Expr.readsAll arguments

def Expr.readsAll : List Expr → List String
  | [] => []
  | e :: es => e.reads ++ Expr.readsAll es

end

mutual

def Expr.called : Expr → List String
  | .int _ => []
  | .bool _ => []
  | .string _ => []
  | .null => []
  | .variable _ => []
  | .binary _ left right => left.called ++ right.called
  | .call f arguments => f :: Expr.calledAll arguments

def Expr.calledAll : List Expr → List String
  | [] => []
  | e :: es => e.called ++ Expr.calledAll es

end

mutual

/-- The variables that a statement reads, outside the bodies of definitions. -/
def Statement.reads : Statement → List String
  | .expression e => e.reads
  | .assign _ value => value.reads
  | .branch condition body none => condition.reads ++ Statement.readsAll body
  | .branch condition body (some otherwise) =>
    condition.reads ++ (Statement.readsAll body ++ Statement.readsAll otherwise)
  | .loop condition body => condition.reads ++ Statement.readsAll body
  | .define _ _ _ => []

def Statement.readsAll : List Statement → List String
  | [] => []
  | s :: ss => s.reads ++ Statement.readsAll ss

end

mutual

/-- The functions that a statement calls, in the bodies of definitions too. -/
def Statement.called : Statement → List String
  | .expression e => e.called
  | .assign _ value => value.called
  | .branch condition body none => condition.called ++ Statement.calledAll body
  | .branch condition body (some otherwise) =>
    condition.called ++ (Statement.calledAll body ++ Statement.calledAll otherwise)
  | .loop condition body => condition.called ++ Statement.calledAll body
  | .define _ _ body => Statement.calledAll body

def Statement.calledAll : List Statement → List String
  | [] => []
  | s :: ss => s.called ++ Statement.calledAll ss

end

mutual

/-- The variables that a statement assigns, outside the bodies of definitions. -/
def Statement.assigned : Statement → List String
  | .expression _ => []
  | .assign x _ => [x]
  | .branch _ body none => Statement.assignedAll body
  | .branch _ body (some otherwise) =>
    Statement.assignedAll body ++ Statement.assignedAll otherwise
  | .loop _ body => Statement.assignedAll body
  | .define _ _ _ => []

def Statement.assignedAll : List Statement → List String
  | [] => []
  | s :: ss => s.assigned ++ Statement.assignedAll ss

end

mutual

/-- The functions that a statement defines, outside the bodies of definitions. -/
def Statement.defined : Statement → List String
  | .expression _ => []
  | .assign _ _ => []
  | .branch _ body none => Statement.definedAll body
  | .branch _ body (some otherwise) =>
    Statement.definedAll body ++ Statement.definedAll otherwise
  | .loop _ body => Statement.definedAll body
  | .define f _ _ => [f]

def Statement.definedAll : List Statement → List String
  | [] => []
  | s :: ss => s.defined ++ Statement.definedAll ss

end

def Function.called : Function → List String
  | .defined _ body => Statement.calledAll body
  | .embedded _ _ => []

namespace Node

def reads : Node → List String
  | .expr e => e.reads
  | .statement s => s.reads
  | .block body => Statement.readsAll body
  | .source program => Statement.readsAll program.statements

def called : Node → List String
  | .expr e => e.called
  | .statement s => s.called
  | .block body => Statement.calledAll body
  | .source program => Statement.calledAll program.statements

end Node

end Script
