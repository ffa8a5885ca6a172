import ObstacleTracking.Association.ShortestPath
import ObstacleTracking.Decimal.Binary

/-!
# Assignment of machine costs

A matrix of machine numbers is a matrix of whole costs, counted in units of the least positive
machine number. Solved in these, small costs count beside forbidding ones of any size, which a
sum of machine numbers would round away.
-/

namespace ObstacleTracking

/-- The cheapest permutation of a matrix of machine numbers, by their exact sums. -/
def Solver.exact : Solver Float := fun n a =>
  ShortestPath.solve n (Mat.ofFn fun i j => (MachineNumber.ofFloat (a i j)).units)

end ObstacleTracking
