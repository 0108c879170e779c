namespace StackSwap

/-- The deployment target of a stack. -/
structure Environment where
  account : String
  region : String
  partition : String
  urlSuffix : String
deriving DecidableEq, Repr, Inhabited

namespace Environment

/-- The URL suffix that belongs to a partition. -/
def suffixOfPartition (partition : String) : String :=
  if partition = "aws-cn" then "amazonaws.com.cn" else "amazonaws.com"

/-- The target in a partition, with the URL suffix of that partition. -/
def inPartition (account region partition : String) : Environment :=
  ⟨account, region, partition, suffixOfPartition partition⟩

def pseudoParameter? (environment : Environment) (name : String) : Option String :=
  match name with
  | "AWS::AccountId" => some environment.account
  | "AWS::Region" => some environment.region
  | "AWS::Partition" => some environment.partition
  | "AWS::URLSuffix" => some environment.urlSuffix
  | _ => none

end Environment

end StackSwap
