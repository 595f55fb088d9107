import PageFlattening.Build.Horizontal
import PageFlattening.Build.Page
import PageFlattening.Build.Vertical
import PageFlattening.Collection.Basic
import PageFlattening.Collection.Configuration
import PageFlattening.Collection.Record
import PageFlattening.Collection.Report
import PageFlattening.Collection.Resolution
import PageFlattening.Command.Options
import PageFlattening.Command.Run
import PageFlattening.Decimal.Binary
import PageFlattening.Decimal.Fixed
import PageFlattening.Decimal.Shortest
import PageFlattening.Disparity.Expansion
import PageFlattening.Disparity.Field
import PageFlattening.Document.Basic
import PageFlattening.Document.Directory
import PageFlattening.Fault
import PageFlattening.Fit.LeastSquares
import PageFlattening.Fit.Polynomial
import PageFlattening.Fit.Statistics
import PageFlattening.Grid
import PageFlattening.Image.Binarize
import PageFlattening.Image.Bitmap
import PageFlattening.Image.Component
import PageFlattening.Image.Morphology
import PageFlattening.Image.Page
import PageFlattening.Image.Picture
import PageFlattening.Image.Resampling
import PageFlattening.Image.Source
import PageFlattening.Layout.Columns
import PageFlattening.Layout.Detection
import PageFlattening.Layout.TextLine
import PageFlattening.Main
import PageFlattening.Model.Attributes
import PageFlattening.Model.Page
import PageFlattening.Model.Record
import PageFlattening.Model.Validity
import PageFlattening.Proofs.Calls
import PageFlattening.Proofs.Contents
import PageFlattening.Proofs.Insertion
import PageFlattening.Proofs.ModelStatus
import PageFlattening.Proofs.Outcome
import PageFlattening.Proofs.PageCount
import PageFlattening.Proofs.Passes
import PageFlattening.Proofs.Redirects
import PageFlattening.Proofs.Representation
import PageFlattening.Proofs.Resolution
import PageFlattening.Proofs.Review
import PageFlattening.Proofs.Storage
import PageFlattening.Record
import PageFlattening.Render
import PageFlattening.Scalar
import PageFlattening.Settings.Draft
import PageFlattening.Settings.Preset
import PageFlattening.Settings.Ranges
import PageFlattening.Settings.Thresholds
import PageFlattening.Text.FileName
import PageFlattening.Text.Integer
import PageFlattening.Value.Basic
import PageFlattening.Value.Shaped
import PageFlattening.Value.Text
import PageFlattening.Proofs.Cycles
import PageFlattening.Proofs.Records
import PageFlattening.Proofs.ReadBack
import PageFlattening.Proofs.Building
import PageFlattening.Proofs.Serving
import PageFlattening.Proofs.Processing
import PageFlattening.Proofs.Evaluation
import PageFlattening.Proofs.Leftovers
import PageFlattening.Proofs.InsertionOrder
import PageFlattening.Proofs.Donors
import PageFlattening.Proofs.SafeRendering
import PageFlattening.Proofs.Eviction
import PageFlattening.Proofs.Attributes
import PageFlattening.Proofs.FieldPresence
import PageFlattening.Proofs.PageRecords
import PageFlattening.Proofs.Refusals
import PageFlattening.Proofs.Loosening
import PageFlattening.Proofs.Departures
import PageFlattening.Proofs.FileNames
import PageFlattening.Proofs.Ownership
import PageFlattening.Proofs.Reconfiguration
import PageFlattening.Proofs.Removal
import PageFlattening.Proofs.Directory
import PageFlattening.Proofs.BuildSteps
import PageFlattening.Proofs.SinglePage
import PageFlattening.Proofs.Interpolation
import PageFlattening.Proofs.Continuation
import PageFlattening.Proofs.RationalFits
import PageFlattening.Proofs.EdgeFits
import PageFlattening.Proofs.Straightening
import PageFlattening.Proofs.EdgeAlignment
import PageFlattening.Proofs.FitPermutations
import PageFlattening.Proofs.LineOrder
import PageFlattening.Proofs.Majority
import PageFlattening.Proofs.BuildShapes
import PageFlattening.Proofs.BuildOutcomes
import PageFlattening.Proofs.Components
import PageFlattening.Proofs.ComponentLines
import PageFlattening.Proofs.Blocks
import PageFlattening.Proofs.WholePixels
import PageFlattening.Proofs.SingularFits
import PageFlattening.Proofs.BetweenPixels
import PageFlattening.Proofs.TextColumns
import PageFlattening.Proofs.BestFits
import PageFlattening.Proofs.Margins
import PageFlattening.Proofs.Rechecking
import PageFlattening.Proofs.Entries
import PageFlattening.Proofs.Overrides
import PageFlattening.Proofs.Choices
import PageFlattening.Proofs.Assembling
import PageFlattening.Proofs.Interruptions
import PageFlattening.Proofs.LineFigures
import PageFlattening.Proofs.Halving
import PageFlattening.Proofs.Separation
import PageFlattening.Proofs.CommandLine
