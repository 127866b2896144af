import ShiftReduce.Item.Closure

/-!
# What a set of items leads to

A set of items can be left over every symbol that one of its items has next. These symbols are its
labels, and they are taken in the order of symbols, terminals first. Over a label the set leads to
the closure of its kernel: the items that have the label next, advanced over it, in their order.
-/

set_option autoImplicit false

namespace ShiftReduce

/-- Insert a symbol into a list of symbols in increasing order, unless it is there already. -/
def Symbol.insertInto (symbol : Symbol) : List Symbol → List Symbol
  | [] => [symbol]
  | first :: rest =>
    match compare symbol first with
    | .lt => symbol :: first :: rest
    | .eq => first :: rest
    | .gt => first :: symbol.insertInto rest

namespace ItemSet

/-- The symbols that the items of a set have next, each once and in increasing order. -/
def labels (grammar : Grammar) (set : ItemSet) : List Symbol :=
  (set.items.filterMap (Item.nextSymbol? grammar)).foldl
    (fun labels label => label.insertInto labels) []

/-- The items of a set that have a symbol next, advanced over it, in order. -/
def kernel (grammar : Grammar) (set : ItemSet) (label : Symbol) : List Item :=
  set.items.filterMap (Item.advanceOver? grammar label)

/-- The set that a symbol leads to. -/
def successor (grammar : Grammar) (set : ItemSet) (label : Symbol) : ItemSet :=
  closure grammar (set.kernel grammar label)

end ItemSet

end ShiftReduce
