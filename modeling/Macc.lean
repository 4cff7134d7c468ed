import Macc.Catalogue.Writing
import Macc.Curve.Reading
import Macc.Main
import Macc.Proofs.Double.Integers
import Macc.Proofs.PriceMonotone
import Macc.Proofs.FuelPrices
import Macc.Proofs.PeriodOrder
import Macc.Proofs.Definedness
import Macc.Proofs.Work
import Macc.Proofs.Resolution
import Macc.Proofs.Scopes
import Macc.Proofs.Alike
import Macc.Proofs.CurveRebuild
import Macc.Proofs.Files
import Macc.Proofs.FieldRoundTrip
import Macc.Proofs.CatalogueRoundTrip
import Macc.Proofs.Changes
import Macc.Proofs.FieldRefusal
import Macc.Proofs.ColumnNames
import Macc.Proofs.PriceFile
import Macc.Proofs.CatalogueEntries
import Macc.Proofs.RunReport
import Macc.Proofs.ResolutionFailure
import Macc.Proofs.History
import Macc.Proofs.OutputDirectories
import Macc.Proofs.RegionIsolation
import Macc.Proofs.CurveColumns
import Macc.Proofs.LastPoints
import Macc.Proofs.Double.Signs
import Macc.Proofs.BrokenLines
import Macc.Proofs.ReductionBounds
import Macc.Proofs.ReductionSign
import Macc.Proofs.FieldReading
import Macc.Proofs.PointForms
import Macc.Proofs.Double.Overflow
import Macc.Proofs.Gaps
import Macc.Proofs.CatalogueLoading
import Macc.Proofs.ModelYears
import Macc.Proofs.YearReading
import Macc.Proofs.PriceRows
import Macc.Proofs.SinglePrices
import Macc.Proofs.RunSequence
import Macc.Proofs.ShiftedPrices
import Macc.Proofs.Fingerprints
