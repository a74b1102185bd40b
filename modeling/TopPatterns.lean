import TopPatterns.Proofs.Collector.Calls
import TopPatterns.Proofs.Collector.Lookups
import TopPatterns.Proofs.Collector.MergeInto
import TopPatterns.Proofs.Collector.Outline
import TopPatterns.Proofs.Collector.Strongest
import TopPatterns.Proofs.Collector.Subsumption
import TopPatterns.Proofs.Collector.Threshold
import TopPatterns.Proofs.Dataset.Layout
import TopPatterns.Proofs.Dataset.Mark
import TopPatterns.Proofs.Dataset.Recleaned
import TopPatterns.Proofs.Mining.Depth
import TopPatterns.Proofs.Mining.GroupTree
import TopPatterns.Proofs.Mining.OneGroup
import TopPatterns.Proofs.Mining.Rearranged
import TopPatterns.Proofs.Mining.Steady
import TopPatterns.Proofs.Service.MinimumCount
import TopPatterns.Proofs.Service.Params
import TopPatterns.Proofs.Service.Runs
import TopPatterns.Proofs.Tree.Linked
import TopPatterns.Proofs.Tree.Projection
