import Qontinui.Workflow.WorkflowUtils

/-!
The IF and LOOP patterns of a graph workflow: the actions of a branch or of a
loop body, found along the connections.
-/

namespace Qontinui.PatternDetector

open Qontinui.Workflow

structure IfPattern where
  ifAction : Action
  thenBranch : List Action
  elseBranch : List Action
  convergenceAction : Option Action

structure LoopPattern where
  loopAction : Action
  bodyActions : List Action
  nextAction : Option Action

/-- The loop along a branch: until it ends, comes back, meets control flow or forks. -/
def followBranch (workflow : Workflow) : Nat → List String → String → List Action
  | 0, _, _ => []
  | fuel + 1, visited, currentId =>
      if currentId = "" ∨ currentId ∈ visited then []
      else
        match workflow.getActionById currentId with
        | none => []
        | some action =>
            if action.type ∈ [.IF, .LOOP, .SWITCH] then [action]
            else
              match workflow.getNextActions currentId with
              | [nextId] => action :: followBranch workflow fuel (currentId :: visited) nextId
              | _ => [action]

/-- The actions of the branch that starts at an id; an absent or empty id starts none. -/
def extractBranchActions (workflow : Workflow) (startActionId : Option String) : List Action :=
  match startActionId with
  | none => []
  | some startId => followBranch workflow workflow.searchDepth [] startId

/-- One visit of the search for what is downstream: the ids found, and those visited. -/
def traverseDownstream (nextActions : String → List String) :
    Nat → List String × List String → String → List String × List String
  | 0, state, _ => state
  | fuel + 1, (downstream, visited), actionId =>
      if actionId ∈ visited then (downstream, visited)
      else
        (nextActions actionId).foldl (fun (downstream, visited) nextId =>
          let downstream := if nextId ∈ downstream then downstream else downstream ++ [nextId]
          traverseDownstream nextActions fuel (downstream, visited) nextId)
          (downstream, actionId :: visited)

def getAllDownstreamActions (workflow : Workflow) (actions : List Action) : List String :=
  (actions.foldl (fun state action =>
    traverseDownstream workflow.getNextActions workflow.searchDepth state action.id) ([], [])).1

/-- The first id downstream of both branches. -/
def findConvergencePoint (workflow : Workflow) (branch1 branch2 : List Action) : Option Action :=
  let downstream2 := getAllDownstreamActions workflow branch2
  ((getAllDownstreamActions workflow branch1).find? (· ∈ downstream2)).bind workflow.getActionById

def firstTarget (output : List Connection) : Option String := output.head?.map Connection.action

def detectIfPattern (workflow : Workflow) (ifAction : Action) : Option IfPattern :=
  if ifAction.type ≠ .IF then none
  else
    match (workflow.connections.get? ifAction.id).bind Outputs.main with
    | some [trueBranchConnections, falseBranchConnections] =>
        let thenBranch := extractBranchActions workflow (firstTarget trueBranchConnections)
        let elseBranch := extractBranchActions workflow (firstTarget falseBranchConnections)
        let convergenceAction := findConvergencePoint workflow thenBranch elseBranch
        some { ifAction, thenBranch, elseBranch, convergenceAction }
    | _ => none

/-- One visit of the search through a loop body: its actions, and the ids visited. -/
def traverseBody (workflow : Workflow) (loopActionId : String) :
    Nat → List Action × List String → String → List Action × List String
  | 0, state, _ => state
  | fuel + 1, (bodyActions, visited), actionId =>
      if actionId ∈ visited then (bodyActions, visited)
      else
        match workflow.getActionById actionId with
        | none => (bodyActions, actionId :: visited)
        | some action =>
            if actionId = loopActionId then (bodyActions, actionId :: visited)
            else
              ((workflow.getNextActions actionId).filter (· ≠ loopActionId)).foldl
                (traverseBody workflow loopActionId fuel)
                (bodyActions ++ [action], actionId :: visited)

def extractLoopBodyActions (workflow : Workflow) (loopActionId firstBodyActionId : String) :
    List Action :=
  (traverseBody workflow loopActionId workflow.searchDepth ([], []) firstBodyActionId).1

def findLoopExitAction (workflow : Workflow) (loopActionId : String) : Option Action :=
  ((workflow.connections.get? loopActionId).bind Outputs.main).bind fun main =>
    (main[1]?).bind fun exitOutput => (firstTarget exitOutput).bind workflow.getActionById

def firstBodyAction (workflow : Workflow) (loopAction : Action) : Option String :=
  ((workflow.connections.get? loopAction.id).bind Outputs.main).bind fun main =>
    (main[0]?).bind fun firstOutput => (firstTarget firstOutput).filter (· ≠ "")

def detectLoopPattern (workflow : Workflow) (loopAction : Action) : Option LoopPattern :=
  if loopAction.type ≠ .LOOP then none
  else
    match firstBodyAction workflow loopAction with
    | none => none
    | some firstBodyActionId =>
        some { loopAction
               bodyActions := extractLoopBodyActions workflow loopAction.id firstBodyActionId
               nextAction := findLoopExitAction workflow loopAction.id }

end Qontinui.PatternDetector
