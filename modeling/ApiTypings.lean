import ApiTypings.Disk.Setup
import ApiTypings.Main
import ApiTypings.Proofs.Text.Pieces
import ApiTypings.Proofs.Text.Delimited
import ApiTypings.Proofs.Text.Marks
import ApiTypings.Proofs.Path.Names
import ApiTypings.Proofs.Path.LastName
import ApiTypings.Proofs.Path.Extension
import ApiTypings.Proofs.Path.Inside
import ApiTypings.Proofs.Disk.Tree
import ApiTypings.Proofs.Disk.Descent
import ApiTypings.Proofs.Disk.Lookup
import ApiTypings.Proofs.Disk.Changes
import ApiTypings.Proofs.Disk.Ways
import ApiTypings.Proofs.Disk.Places
import ApiTypings.Proofs.Disk.Below
import ApiTypings.Proofs.Disk.Repeat
import ApiTypings.Proofs.Disk.Spelling
import ApiTypings.Proofs.Json.Spelling
import ApiTypings.Proofs.Json.Regular
import ApiTypings.Proofs.Json.Reading
import ApiTypings.Proofs.Api.Nodes
import ApiTypings.Proofs.Api.RoundTrip
import ApiTypings.Proofs.Api.Edits
import ApiTypings.Proofs.Layout.Lines
import ApiTypings.Proofs.Layout.Tabs
import ApiTypings.Proofs.Layout.Runs
import ApiTypings.Proofs.Layout.Blanks
import ApiTypings.Proofs.Layout.Normalized
import ApiTypings.Proofs.Layout.Sparse
import ApiTypings.Proofs.Layout.Fixed
import ApiTypings.Proofs.Declaration.Total
import ApiTypings.Proofs.Declaration.Arrangement
import ApiTypings.Proofs.Declaration.ClosedForm
import ApiTypings.Proofs.Declaration.Names
import ApiTypings.Proofs.Declaration.Blanks
import ApiTypings.Proofs.Declaration.Outline
import ApiTypings.Proofs.Declaration.Ranking
import ApiTypings.Proofs.Declaration.Entries
import ApiTypings.Proofs.Run.Moments
import ApiTypings.Proofs.Run.Effects
import ApiTypings.Proofs.Run.Replace
import ApiTypings.Proofs.Run.Reading
import ApiTypings.Proofs.Run.Writing
import ApiTypings.Proofs.Run.Leftovers
import ApiTypings.Proofs.Run.Spared
import ApiTypings.Proofs.Run.Survival
import ApiTypings.Proofs.Run.Preview
import ApiTypings.Proofs.Run.Again
import ApiTypings.Proofs.Run.Calls
import ApiTypings.Proofs.Run.Index
import ApiTypings.Proofs.Run.Writers
import ApiTypings.Proofs.CommandLine.Reports
import ApiTypings.Proofs.CommandLine.Words
